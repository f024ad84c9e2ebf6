import PortableCodex.Authority.OperationPages
import PortableCodex.Traces.Run

/-!
The operations of a provider over its authority: `prepareOperation`, `commitOperation` and `readOperation`.

The calls of any number of providers take their turns under one lock, and any of them can end without an answer. An
operation that was seen once is found again by its id, also behind a rotation that has dropped it from the provider:
later views continue earlier ones, it is to be dispatched once, and a repeated call replays it (`operationLaws`).
-/

namespace PortableCodex.Authority

open Js ProviderState HeadAnchor Traces

/-! ### Calls -/

/-- The last one is any error that comes from the files or from the authority. -/
inductive ProviderError where
  | operationConflict
  | operationAlreadyPrepared
  | corruptLedger
  | failed
  deriving DecidableEq

structure Transient where
  replayed : Bool
  shouldDispatch : Bool
  deriving DecidableEq

/-- What a call returns of an operation. -/
structure OperationView where
  record : Operation
  currentStorageState : Option StorageState
  currentAttachmentOriginOperationId : Option OpaqueId
  transient : Option Transient

abbrev ProviderAnswer := Except ProviderError (Option OperationView)

structure PrepareRequest where
  kind : Kind
  operationId : OpaqueId
  request : CanonicalObject
  storageId : OpaqueId
  /-- The option may be absent, null or a state. -/
  expectedStorageState : Option (Option StorageState)

structure CommitRequest where
  operationId : OpaqueId
  request : CanonicalObject
  result : CanonicalObject
  storageState : StorageState

structure ReadRequest where
  operationId : OpaqueId
  request : Option CanonicalObject

inductive ProviderCall where
  | prepareOperation (input : PrepareRequest)
  | commitOperation (input : CommitRequest)
  | readOperation (input : ReadRequest)

def operationView (state : GenerationState) (record : Operation) (currentStorageState : Option StorageState)
    (transient : Option Transient) : OperationView where
  record := record
  currentStorageState := currentStorageState
  currentAttachmentOriginOperationId := (state.attachmentOrigins.get? record.storageId).getD none
  transient := transient

/-- `{ replayed: true, shouldDispatch: false }` -/
def replayed : Transient := { replayed := true, shouldDispatch := false }

/-- A provider and the authority that it writes to. -/
structure Provider where
  cache : GenerationCache
  index : OperationIndex

namespace Provider

variable (provider : Provider) (policy : RotationPolicy)

/-- `rotateGeneration`, if the authority takes it. -/
def rotate : Option Provider := do
  let next ← rotateGeneration provider.cache
  let indexed ← (provider.index.compareAndAdvance provider.cache.head next.head .rotate).join
  some { cache := next, index := indexed }

/-- `appendDeltaEvent`, if the authority takes it. -/
def appendEvent (event : DeltaEvent) : Option Provider := do
  let next ← appendDeltaEvent provider.cache event
  let transition ← appendTransition provider.cache event
  let indexed ← (provider.index.compareAndAdvance provider.cache.head next.head transition).join
  some { cache := next, index := indexed }

/-- The provider behind an append, and whether the event was appended. -/
def appended (event : DeltaEvent) : Provider × Bool :=
  match provider.appendEvent event with
  | none => (provider, false)
  | some next => (next, true)

/-- `append` of `#run`. The calls of `validateV3AuthorityProjection` behind loads, appends and rotations are left
out: the projection is confirmed in every run (`originLaws`). -/
def append (event : DeltaEvent) : Provider × Bool :=
  match rotatesFirst policy provider.cache event with
  | none => (provider, false)
  | some false => provider.appended event
  | some true =>
      match provider.rotate with
      | none => (provider, false)
      | some rotated => rotated.appended event

/-- `operationView` of a record that was there before the call. -/
def replay (record : Operation) (transient : Option Transient) : ProviderAnswer :=
  let currentStorageState := provider.cache.state.storages.get? record.storageId
  .ok (some (operationView provider.cache.state record currentStorageState transient))

/-- The call appends an event and returns the record that the state has then. -/
def appendAndView (event : DeltaEvent) (operationId : OpaqueId) (currentStorageState : Option StorageState)
    (transient : Transient) : ProviderAnswer × Provider :=
  match provider.append policy event with
  | (next, false) => (.error .failed, next)
  | (next, true) =>
      match next.cache.state.operations.get? operationId with
      | none => (.error .failed, next)
      | some record => (.ok (some (operationView next.cache.state record currentStorageState (some transient))), next)

def prepareOperation (input : PrepareRequest) : ProviderAnswer × Provider :=
  match provider.index.readOperation provider.cache.head input.operationId with
  | none => (.error .failed, provider)
  | some (some existing) =>
      if existing.kind = input.kind ∧ existing.storageId = input.storageId ∧ existing.request = input.request then
        (provider.replay existing (some replayed), provider)
      else (.error .operationConflict, provider)
  | some none =>
      let storageStateBefore := provider.cache.state.storages.get? input.storageId
      if ∃ expected ∈ input.expectedStorageState, storageStateBefore ≠ expected then
        (.error .operationConflict, provider)
      else if pendingOperationForStorage provider.cache.state input.storageId ≠ none then
        (.error .operationAlreadyPrepared, provider)
      else if ¬ assertPreparePrecondition storageStateBefore input.kind then (.error .operationConflict, provider)
      else
        provider.appendAndView policy
          (.prepared input.kind input.operationId input.request input.storageId storageStateBefore) input.operationId
          storageStateBefore { replayed := false, shouldDispatch := true }

/-- The prepared operation of the provider has to be that of the authority. -/
def HoldsPrepared (operationId : OpaqueId) (existing : Operation) : Prop :=
  existing.commit = none → provider.cache.state.operations.get? operationId = some existing

instance (operationId : OpaqueId) (existing : Operation) : Decidable (provider.HoldsPrepared operationId existing) :=
  inferInstanceAs (Decidable (_ → _))

def commitOperation (input : CommitRequest) : ProviderAnswer × Provider :=
  match provider.index.readOperation provider.cache.head input.operationId with
  | none => (.error .failed, provider)
  | some none => (.error .operationConflict, provider)
  | some (some existing) =>
      if ¬ provider.HoldsPrepared input.operationId existing then (.error .corruptLedger, provider)
      else if existing.request ≠ input.request then (.error .operationConflict, provider)
      else if existing.commit ≠ none then (provider.replay existing (some replayed), provider)
      else
        let currentStorageState := provider.cache.state.storages.get? existing.storageId
        if currentStorageState ≠ existing.storageStateBefore ∨ input.storageState.storageId ≠ existing.storageId then
          (.error .operationConflict, provider)
        else if ¬ assertStorageTransition currentStorageState input.storageState existing.kind then
          (.error .operationConflict, provider)
        else
          provider.appendAndView policy
            (.committed (expectedStorageState currentStorageState) input.operationId (some existing.preparedChecksum)
              input.result input.storageState) input.operationId (some input.storageState)
            { replayed := false, shouldDispatch := false }

def readOperation (input : ReadRequest) : ProviderAnswer × Provider :=
  match provider.index.readOperation provider.cache.head input.operationId with
  | none => (.error .failed, provider)
  | some none => (.ok none, provider)
  | some (some record) =>
      if ∃ request ∈ input.request, record.request ≠ request then (.error .operationConflict, provider)
      else (provider.replay record none, provider)

def perform : ProviderCall → ProviderAnswer × Provider
  | .prepareOperation input => provider.prepareOperation policy input
  | .commitOperation input => provider.commitOperation policy input
  | .readOperation input => provider.readOperation input

end Provider

def ProviderCall.operationId : ProviderCall → OpaqueId
  | .prepareOperation input => input.operationId
  | .commitOperation input => input.operationId
  | .readOperation input => input.operationId

/-- A call that has ended, with its answer unless it has none: it crashed, or left open whether it wrote. -/
structure ProviderEvent where
  call : ProviderCall
  answer : Option ProviderAnswer

/-- One call: with its answer, without one, before it has written anything or behind its rotation. -/
inductive ProviderStep : Provider → List ProviderEvent → Provider → Prop where
  | answered {provider answer next} (policy : RotationPolicy) (call : ProviderCall) :
      provider.perform policy call = (answer, next) → ProviderStep provider [{ call, answer := some answer }] next
  | unanswered {provider answer next} (policy : RotationPolicy) (call : ProviderCall) :
      provider.perform policy call = (answer, next) → ProviderStep provider [{ call, answer := none }] next
  | unwritten {provider} (call : ProviderCall) : ProviderStep provider [{ call, answer := none }] provider
  | rotated {provider next} (call : ProviderCall) :
      provider.rotate = some next → ProviderStep provider [{ call, answer := none }] next

/-- Providers and their authority from the empty state on. -/
def providers : System Provider ProviderEvent where
  start provider := provider = { cache := genesisCache .v3, index := genesisIndex }
  step := ProviderStep

end PortableCodex.Authority
