import Mathlib.Logic.Function.Basic
import PortableCodex.ProviderState.Tail

/-!
The cache of a provider over its files: `loadGenerationState`, and what `appendDeltaEvent` and `rotateGeneration`
leave in the cache.

A cache is kept between operations. It holds the identity and the metadata of the files it was read from, and a load
reuses what belongs to unchanged metadata. Locks, checks of permissions and the calls to the anchor are left out; the
times that a write gives to a file are an argument.
-/

namespace PortableCodex.ProviderState.StateFiles

open Js

/-! ### Files -/

structure FileIdentity where
  dev : Nat
  ino : Nat
deriving DecidableEq

/-- `metadataSnapshot` -/
structure MetadataSnapshot where
  ctimeNs : Nat
  mtimeNs : Nat
  size : Nat
deriving DecidableEq

structure FileTimes where
  ctimeNs : Nat
  mtimeNs : Nat
deriving DecidableEq

structure StateFile where
  identity : FileIdentity
  times : FileTimes
  bytes : Bytes
deriving DecidableEq

def StateFile.metadata (file : StateFile) : MetadataSnapshot where
  ctimeNs := file.times.ctimeNs
  mtimeNs := file.times.mtimeNs
  size := file.bytes.length

/-- The files of the state directory, named by their generations. -/
structure StateDirectory where
  checkpoint : Uint64 → Option StateFile
  ledger : Uint64 → Option StateFile

def StateDirectory.setLedger (directory : StateDirectory) (generation : Uint64) (file : StateFile) :
    StateDirectory :=
  { directory with ledger := Function.update directory.ledger generation (some file) }

def StateDirectory.setCheckpoint (directory : StateDirectory) (generation : Uint64) (file : StateFile) :
    StateDirectory :=
  { directory with checkpoint := Function.update directory.checkpoint generation (some file) }

def StateDirectory.cleanupGeneration (directory : StateDirectory) (generation : Uint64) : StateDirectory where
  checkpoint := Function.update directory.checkpoint generation none
  ledger := Function.update directory.ledger generation none

structure StateCache where
  checkpointMetadata : Option MetadataSnapshot
  checkpointPin : Option FileIdentity
  checkpointState : GenerationState
  head : LedgerHead
  ledgerMetadata : Option MetadataSnapshot
  ledgerPin : Option FileIdentity
  state : GenerationState

/-! ### Loading -/

def TrueGenesis (head : LedgerHead) : Prop := head.generation.val = 0 ∧ head.stateRevision.val = 0

instance (head : LedgerHead) : Decidable (TrueGenesis head) := inferInstanceAs (Decidable (_ ∧ _))

/-- The state before the first frame of generation 0. -/
def genesisState (head : LedgerHead) : GenerationState := emptyGenerationState ⟨0, uint64_zero⟩ head.contractVersion

/-- The cache of a head without files. -/
def genesisStateCache (head : LedgerHead) : StateCache where
  checkpointMetadata := none
  checkpointPin := none
  checkpointState := genesisState head
  head := head
  ledgerMetadata := none
  ledgerPin := none
  state := genesisState head

/-- The cache of what was read from a checkpoint and a ledger. -/
def cacheOf (head : LedgerHead) (checkpoint : Option StateFile) (checkpointState : GenerationState)
    (ledger : StateFile) (state : GenerationState) : StateCache where
  checkpointMetadata := checkpoint.map (·.metadata)
  checkpointPin := checkpoint.map (·.identity)
  checkpointState := checkpointState
  head := head
  ledgerMetadata := some ledger.metadata
  ledgerPin := some ledger.identity
  state := state

def SameGeneration (head : LedgerHead) (cache : StateCache) : Prop :=
  cache.head.contractVersion = head.contractVersion ∧ cache.head.generation = head.generation

instance (head : LedgerHead) (cache : StateCache) : Decidable (SameGeneration head cache) :=
  inferInstanceAs (Decidable (_ ∧ _))

/-- Open the checkpoint of a later generation. A cache of the generation has to have its pin. -/
def openCheckpoint (same : Option StateCache) (head : LedgerHead) (directory : StateDirectory) :
    Option (Option StateFile) :=
  if head.generation.val = 0 then some none
  else do
    let file ← directory.checkpoint head.generation
    ensure (same.all fun cache => cache.checkpointPin = some file.identity)
    some (some file)

/-- Open the ledger. A cache of the generation may have its pin. -/
def openLedger (same : Option StateCache) (head : LedgerHead) (directory : StateDirectory) : Option StateFile := do
  let file ← directory.ledger head.generation
  ensure (same.all fun cache => cache.ledgerPin.all fun pin => file.identity = pin)
  some file

/-- The whole cache is of the head and of files with this metadata. -/
def Current (head : LedgerHead) (checkpoint : Option StateFile) (ledger : StateFile) (cache : StateCache) : Prop :=
  cache.head = head ∧ cache.checkpointMetadata = checkpoint.map (·.metadata) ∧
    cache.ledgerMetadata = some ledger.metadata

instance (head : LedgerHead) (checkpoint : Option StateFile) (ledger : StateFile) (cache : StateCache) :
    Decidable (Current head checkpoint ledger cache) :=
  inferInstanceAs (Decidable (_ ∧ _ ∧ _))

def loadCheckpointState (file : StateFile) (head : LedgerHead) : Option GenerationState := do
  ensure (file.bytes.length = head.checkpointBytes.val)
  parseCheckpointStream file.bytes head

def CheckpointIdentityEqual (left right : LedgerHead) : Prop :=
  left.generation = right.generation ∧ left.baseHeadChecksum = right.baseHeadChecksum ∧
    left.checkpointStateRevision = right.checkpointStateRevision ∧
    left.checkpointFrameCount = right.checkpointFrameCount ∧
    left.checkpointChecksum = right.checkpointChecksum ∧ left.checkpointBytes = right.checkpointBytes

instance (left right : LedgerHead) : Decidable (CheckpointIdentityEqual left right) :=
  inferInstanceAs (Decidable (_ ∧ _ ∧ _ ∧ _ ∧ _ ∧ _))

/-- The checkpoint state of the cache is of this file. -/
def Reusable (head : LedgerHead) (file : StateFile) (cache : StateCache) : Prop :=
  CheckpointIdentityEqual cache.head head ∧ cache.checkpointMetadata = some file.metadata

instance (head : LedgerHead) (file : StateFile) (cache : StateCache) : Decidable (Reusable head file cache) :=
  inferInstanceAs (Decidable (_ ∧ _))

/-- The state that the checkpoint holds, from the cache where that is allowed. -/
def checkpointStateOf (same : Option StateCache) (head : LedgerHead) : Option StateFile → Option GenerationState
  | none => some (genesisState head)
  | some file =>
      match same.filter fun cache => Reusable head file cache with
      | some cache => some cache.checkpointState
      | none => loadCheckpointState file head

/-- The ledger without a tail, and the state it leads to. -/
def readLedger (allowTruncate : Bool) (head : LedgerHead) (checkpointState : GenerationState) (ledger : StateFile)
    (times : FileTimes) : Option (StateFile × GenerationState) := do
  let parsed ← parseActiveLedgerWithTail ledger.bytes head checkpointState
  match parsed.truncateOffset with
  | none => some (ledger, parsed.state)
  | some offset => do
      ensure (allowTruncate = true)
      let recovered := { ledger with times, bytes := subarray ledger.bytes 0 offset }
      let reparsed ← parseActiveLedgerWithTail recovered.bytes head checkpointState
      ensure (reparsed.truncateOffset = none)
      some (recovered, parsed.state)

/-- `loadGenerationState`: the cache that an operation goes on with, and the directory it leaves. -/
def loadGenerationState (allowTruncate : Bool) (cache : Option StateCache) (head : LedgerHead)
    (directory : StateDirectory) (times : FileTimes) : Option (StateCache × StateDirectory) :=
  if TrueGenesis head then
    match cache.filter fun cache => cache.head = head with
    | some cache => some (cache, directory)
    | none => some (genesisStateCache head, directory)
  else do
    let same := cache.filter fun cache => SameGeneration head cache
    let checkpoint ← openCheckpoint same head directory
    let ledger ← openLedger same head directory
    ensure ((if allowTruncate then head.ledgerBytes.val ≤ ledger.bytes.length
      else ledger.bytes.length = head.ledgerBytes.val) ∧ ledger.bytes.length ≤ maxLedgerBytes)
    match cache.filter fun cache => Current head checkpoint ledger cache with
    | some cache => some (cache, directory)
    | none => do
        let checkpointState ← checkpointStateOf same head checkpoint
        let (recovered, state) ← readLedger allowTruncate head checkpointState ledger times
        some (cacheOf head checkpoint checkpointState recovered state,
          directory.setLedger head.generation recovered)

/-! ### Appending and rotating -/

/-- The ledger of an append. The ledger of the first event is created, a later one has the pin of the cache. -/
def openForAppend (cache : StateCache) (directory : StateDirectory) (created : FileIdentity) (times : FileTimes) :
    Option StateFile :=
  if TrueGenesis cache.head then do
    ensure ((directory.ledger cache.head.generation).isNone)
    some { identity := created, times, bytes := [] }
  else do
    let file ← directory.ledger cache.head.generation
    ensure (cache.ledgerPin = some file.identity)
    some file

/-- `appendDeltaEvent`: the frame is written behind the ledger, read back and anchored. -/
def appendDeltaEvent (cache : StateCache) (event : DeltaEvent) (directory : StateDirectory) (created : FileIdentity)
    (times : FileTimes) : Option (StateCache × StateDirectory) := do
  let encoded ← encodeDeltaEvent cache.head event
  ensure (cache.head.ledgerBytes.val + encoded.bytes.length ≤ maxLedgerBytes)
  let ledger ← openForAppend cache directory created times
  ensure (ledger.bytes.length = cache.head.ledgerBytes.val)
  let written := { ledger with times, bytes := ledger.bytes ++ encoded.bytes }
  let nextHead ← appendedHead cache.head encoded
  let parsed ← parseActiveLedgerWithTail written.bytes nextHead cache.checkpointState
  ensure (parsed.truncateOffset = none)
  some ({ cache with
    head := nextHead
    ledgerMetadata := some written.metadata
    ledgerPin := some written.identity
    state := parsed.state }, directory.setLedger cache.head.generation written)

/-- The files and the cache of a new generation, its checkpoint read back and its ledger empty. The files of the
generation before it are removed. -/
def startGeneration (expectedHead nextHead : LedgerHead) (checkpoint ledger : StateFile)
    (directory : StateDirectory) : Option (StateCache × StateDirectory) := do
  ensure ((directory.checkpoint nextHead.generation).isNone ∧ (directory.ledger nextHead.generation).isNone)
  ensure (ledger.bytes = [])
  let loaded ← loadCheckpointState checkpoint nextHead
  let started := (directory.setCheckpoint nextHead.generation checkpoint).setLedger nextHead.generation ledger
  some (cacheOf nextHead (some checkpoint) loaded ledger loaded, started.cleanupGeneration expectedHead.generation)

/-- `rotateGeneration` -/
def rotateGeneration (cache : StateCache) (directory : StateDirectory) (checkpoint ledger : FileIdentity)
    (times : FileTimes) : Option (StateCache × StateDirectory) := do
  let rotated ← rotation cache.head cache.state
  startGeneration cache.head rotated.head { identity := checkpoint, times, bytes := rotated.checkpoint.bytes }
    { identity := ledger, times, bytes := [] } directory

/-! ### A provider among others -/

/-- What a provider and the others see: the directory, the trusted head and the cache that the provider keeps.
`holding` says that an operation of the provider has the lock and goes on with the cache. -/
structure Provider where
  directory : StateDirectory
  head : LedgerHead
  cache : Option StateCache
  holding : Bool

inductive Step : Provider → Provider → Prop
  | load {provider : Provider} {allowTruncate : Bool} {times : FileTimes} {cache : StateCache}
      {directory : StateDirectory}
      (loads : loadGenerationState allowTruncate provider.cache provider.head provider.directory times =
        some (cache, directory)) :
      Step provider { provider with directory, cache := some cache, holding := true }
  | append {provider : Provider} {event : DeltaEvent} {created : FileIdentity} {times : FileTimes}
      {cache next : StateCache} {directory : StateDirectory} (holding : provider.holding = true)
      (current : provider.cache = some cache)
      (appends : appendDeltaEvent cache event provider.directory created times = some (next, directory)) :
      Step provider { directory, head := next.head, cache := some next, holding := true }
  | rotate {provider : Provider} {checkpoint ledger : FileIdentity} {times : FileTimes} {cache next : StateCache}
      {directory : StateDirectory} (holding : provider.holding = true) (current : provider.cache = some cache)
      (rotates : rotateGeneration cache provider.directory checkpoint ledger times = some (next, directory)) :
      Step provider { directory, head := next.head, cache := some next, holding := true }
  /-- An adoption starts a generation under a head of its own. -/
  | adopt {provider : Provider} {nextHead : LedgerHead} {checkpoint ledger : StateFile} {next : StateCache}
      {directory : StateDirectory} (follows : nextHead.generation.val = provider.head.generation.val + 1)
      (noFrames : nextHead.frameCount.val = 0)
      (starts : startGeneration provider.head nextHead checkpoint ledger provider.directory =
        some (next, directory)) :
      Step provider { directory, head := nextHead, cache := some next, holding := true }
  /-- Other processes, and operations of the provider that fail, leave any files and any head. A failure leaves the
  cache from before it or none, also where its head was committed. -/
  | others {provider : Provider} {directory : StateDirectory} {head : LedgerHead} {cache : Option StateCache}
      (kept : cache = provider.cache ∨ cache = none) :
      Step provider { directory, head, cache, holding := false }

/-- A run of a provider, with the directories it has met. -/
inductive Run : List StateDirectory → Provider → Prop
  | start (directory : StateDirectory) (head : LedgerHead) :
      Run [directory] { directory, head, cache := none, holding := false }
  | step {history : List StateDirectory} {provider next : Provider} (run : Run history provider)
      (step : Step provider next) : Run (next.directory :: history) next

end PortableCodex.ProviderState.StateFiles
