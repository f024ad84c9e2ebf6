import PortableCodex.Js.Text
import PortableCodex.Js.Utf8
import PortableCodex.Js.Number
import PortableCodex.Js.NumberParse
import PortableCodex.Js.Json
import PortableCodex.Js.JsonParse
import PortableCodex.Js.Members
import PortableCodex.Js.Buffer
import PortableCodex.Js.Path
import PortableCodex.Js.Map
import PortableCodex.ProviderState.Canonical
import PortableCodex.ProviderState.CanonicalLaws
import PortableCodex.ProviderState.Values
import PortableCodex.ProviderState.Storage
import PortableCodex.ProviderState.Frame
import PortableCodex.ProviderState.FrameLaws
import PortableCodex.ProviderState.Codec
import PortableCodex.ProviderState.CodecLaws
import PortableCodex.ProviderState.Replay
import PortableCodex.ProviderState.Head
import PortableCodex.ProviderState.Checkpoint
import PortableCodex.ProviderState.CheckpointLaws
import PortableCodex.ProviderState.Life
import PortableCodex.ProviderState.ReplayInvariant
import PortableCodex.ProviderState.FrameSize
import PortableCodex.ProviderState.CheckpointCapacity
import PortableCodex.ProviderState.History
import PortableCodex.ProviderState.RotationLaws
import PortableCodex.ProviderState.Rebase
import PortableCodex.Traces.Run
import PortableCodex.Js.Date
import PortableCodex.Contracts.SessionStorage
import PortableCodex.StoppedWriter.Coordinator
import PortableCodex.StoppedWriter.Life
import PortableCodex.StoppedWriter.Views
import PortableCodex.StoppedWriter.Tenancy
import PortableCodex.StoppedWriter.Laws
import PortableCodex.Js.Base64
import PortableCodex.Traces.Program
import PortableCodex.AuthStore.Record
import PortableCodex.AuthStore.Store
import PortableCodex.AuthStore.Surroundings
import PortableCodex.AuthStore.StoreReading
import PortableCodex.AuthStore.StoreLaws
import PortableCodex.AuthStore.StoreRun
import PortableCodex.Js.RegExp
import PortableCodex.Contracts.Mutation
import PortableCodex.Journal.Record
import PortableCodex.Journal.Journal
import PortableCodex.Journal.Surroundings
import PortableCodex.Journal.JournalReading
import PortableCodex.Journal.RecordLaws
import PortableCodex.Journal.JournalLaws
import PortableCodex.Journal.JournalRun
import PortableCodex.ProviderState.Ledger
import PortableCodex.ProviderState.LedgerLaws
import PortableCodex.HeadAnchor.HeadAnchor
import PortableCodex.HeadAnchor.HeadAnchorLaws
import PortableCodex.AdvisoryLock.Handle
import PortableCodex.AdvisoryLock.HandleLaws
import PortableCodex.OperationGuard.Guard
import PortableCodex.OperationGuard.GuardLaws
import PortableCodex.CrashCapture.Catalogue
import PortableCodex.CrashCapture.Calls
import PortableCodex.CrashCapture.CatalogueLaws
import PortableCodex.CrashCapture.CatalogueRun
import PortableCodex.SerializableStore.Store
import PortableCodex.SerializableStore.StoreLaws
import PortableCodex.Settlement.Settlement
import PortableCodex.Settlement.SettlementLaws
import PortableCodex.StoppedTree.Tree
import PortableCodex.StoppedTree.Resolution
import PortableCodex.StoppedTree.CopyLaws
import PortableCodex.Js.TextDecoder
import PortableCodex.Js.JsonPrefix
import PortableCodex.RolloutRepair.Analysis
import PortableCodex.RolloutRepair.AnalysisLaws
import PortableCodex.RolloutRepair.Repair
import PortableCodex.RolloutRepair.RepairLaws
import PortableCodex.StoppedTree.Fields
import PortableCodex.StoppedTree.Traversal
import PortableCodex.StoppedTree.DigestLaws
import PortableCodex.StoppedTree.Identities
import PortableCodex.StoppedTree.IdentityLaws
import PortableCodex.RecoveryCursor.Cursor
import PortableCodex.RecoveryCursor.Calls
import PortableCodex.RecoveryCursor.CursorLaws
import PortableCodex.RecoveryCursor.CursorRun
import PortableCodex.RecoveryScheduler.Scheduler
import PortableCodex.RecoveryScheduler.SchedulerLaws
import PortableCodex.RecoveryScheduler.SchedulerRun
import PortableCodex.PodmanState.State
import PortableCodex.PodmanState.StateLaws
import PortableCodex.SymlinkWalk.AbsoluteLinks
import PortableCodex.PodmanLaunch.LaunchRun
import PortableCodex.Journal.RoundTrip
import PortableCodex.Authority.OperationJsonLaws
import PortableCodex.ProviderState.TailLaws
import PortableCodex.ProviderState.StateFiles
import PortableCodex.ProviderState.StateFilesLaws
import PortableCodex.ProviderState.LockOrder
import PortableCodex.ProviderState.LockOrderLaws
import PortableCodex.ProviderState.Capacity
import PortableCodex.Paging.PartitionPoint
import PortableCodex.Paging.Pages
import PortableCodex.ProviderState.Adoption
import PortableCodex.Authority.AdoptionStaging
import PortableCodex.AuthBroker.BrokerRun
import PortableCodex.Authority.OperationIndexRun
import PortableCodex.Authority.OperationPages
import PortableCodex.Authority.ProviderRun
