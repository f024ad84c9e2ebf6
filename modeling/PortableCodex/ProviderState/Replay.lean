import PortableCodex.ProviderState.FrameLaws
import PortableCodex.Js.Map

/-!
The generation state and the replay of delta frames into it.

`applyDeltaFrame` checks one frame against the state and applies it. `applyDeltaFrame_eq_some_iff`
says what an accepted frame does: a prepared frame adds a pending operation (`Prepares`), a
committed frame completes one (`Commits`) and moves its storage by `assertStorageTransition`.
-/

namespace PortableCodex.ProviderState

open Js

/-- What a ledger and its checkpoint denote. -/
structure GenerationState where
  contractVersion : Version
  stateRevision : Uint64
  operations : JsMap OpaqueId Operation
  storages : JsMap OpaqueId StorageState
  /-- The operation that attached a storage; null when the storage is not attached. -/
  attachmentOrigins : JsMap OpaqueId (Option OpaqueId)

def emptyGenerationState (stateRevision : Uint64) (contractVersion : Version) : GenerationState :=
  { contractVersion, stateRevision, operations := .empty, storages := .empty, attachmentOrigins := .empty }

def pendingOperationForStorage (state : GenerationState) (storageId : OpaqueId) : Option Operation :=
  state.operations.values.find? fun operation => operation.commit = none ∧ operation.storageId = storageId

def makePreparedRecord (frame : PreparedFrame) (checksum : Checksum) : Operation where
  kind := frame.kind
  operationId := frame.operationId
  preparedChecksum := checksum
  preparedStateRevision := frame.stateRevision
  request := frame.request
  storageId := frame.storageId
  storageStateBefore := frame.storageStateBefore
  commit := none

def makeCommittedRecord (prepared : Operation) (frame : CommittedFrame) : Operation :=
  { prepared with
    commit := some {
      committedStateRevision := frame.stateRevision
      expectedStorage := frame.expectedStorage
      result := frame.result
      storageState := frame.storageState } }

/-- The origin of the attachment a committed operation leaves behind. -/
def committedAttachmentOrigin (state : GenerationState) (operation : Operation)
    (storageState : StorageState) : Option (Option OpaqueId) :=
  match operation.kind with
  | .attach | .restoreAttach => some (some operation.operationId)
  | .checkpoint | .restore => some ((state.attachmentOrigins.get? operation.storageId).getD none)
  | .provision | .detach | .destroy => do
      ensure (storageState.lifecycle ≠ .attached)
      some none

/-- The checks on every delta frame: its version, its place in the ledger and its revision. -/
def Follows (state : GenerationState) (frame : DeltaFrame) (expectedSequence : Nat) : Prop :=
  state.contractVersion = frame.contractVersion ∧ frame.sequence.val = expectedSequence ∧
    incrementNonnegativeUint64 state.stateRevision.val = some frame.stateRevision.val

instance (state : GenerationState) (frame : DeltaFrame) (expectedSequence : Nat) :
    Decidable (Follows state frame expectedSequence) :=
  inferInstanceAs (Decidable (_ ∧ _ ∧ _))

/-- The revision of an applied frame. -/
def revisionOf (revision : PositiveUint64) : Uint64 := ⟨revision.val, revision.property.2⟩

def applyPreparedFrame (state : GenerationState) (frame : PreparedFrame) (checksum : Checksum) :
    Option (Operation × GenerationState) := do
  ensure (state.operations.has frame.operationId = false)
  let currentStorage := state.storages.get? frame.storageId
  ensure (pendingOperationForStorage state frame.storageId = none ∧
    currentStorage = frame.storageStateBefore)
  ensure (assertPreparePrecondition currentStorage frame.kind)
  let prepared := makePreparedRecord frame checksum
  some (prepared, { state with
    operations := state.operations.set frame.operationId prepared
    stateRevision := revisionOf frame.stateRevision })

def applyCommittedFrame (state : GenerationState) (frame : CommittedFrame) :
    Option (Operation × GenerationState) := do
  let operation ← state.operations.get? frame.operationId
  ensure (operation.commit = none ∧ some operation.preparedChecksum = frame.preparedChecksum)
  let currentStorage := state.storages.get? operation.storageId
  ensure (currentStorage = operation.storageStateBefore ∧
    frame.expectedStorage = expectedStorageState currentStorage ∧
    frame.storageState.storageId = operation.storageId)
  ensure (assertStorageTransition currentStorage frame.storageState operation.kind)
  let committed := makeCommittedRecord operation frame
  let origin ← committedAttachmentOrigin state operation frame.storageState
  some (committed, { state with
    operations := state.operations.set frame.operationId committed
    storages := state.storages.set operation.storageId frame.storageState
    attachmentOrigins := state.attachmentOrigins.set operation.storageId origin
    stateRevision := revisionOf frame.stateRevision })

/-- The record a frame makes and the state after it, if the frame is accepted. -/
def applyDeltaFrame (state : GenerationState) (frame : DeltaFrame) (checksum : Checksum)
    (expectedSequence : Nat) : Option (Operation × GenerationState) := do
  ensure (Follows state frame expectedSequence)
  match frame with
  | .prepared frame => applyPreparedFrame state frame checksum
  | .committed frame => applyCommittedFrame state frame

/-! ### Accepted frames -/

theorem pendingOperationForStorage_eq_none {state : GenerationState} {storageId : OpaqueId} :
    pendingOperationForStorage state storageId = none ↔
      ∀ id operation, state.operations.get? id = some operation → operation.commit = none →
        operation.storageId ≠ storageId := by
  simp only [pendingOperationForStorage, List.find?_eq_none, JsMap.mem_values, decide_eq_true_eq, not_and]
  constructor
  · intro absent id operation found
    exact absent operation ⟨id, found⟩
  · rintro absent operation ⟨id, found⟩
    exact absent id operation found

/-- A prepared frame that the state accepts. -/
structure Prepares (state : GenerationState) (frame : PreparedFrame) : Prop where
  fresh : state.operations.get? frame.operationId = none
  idle : ∀ id operation, state.operations.get? id = some operation → operation.commit = none →
    operation.storageId ≠ frame.storageId
  current : state.storages.get? frame.storageId = frame.storageStateBefore
  allowed : assertPreparePrecondition frame.storageStateBefore frame.kind

/-- A committed frame that the state accepts, the operation it completes and the origin it leaves. -/
structure Commits (state : GenerationState) (frame : CommittedFrame) (operation : Operation)
    (origin : Option OpaqueId) : Prop where
  found : state.operations.get? frame.operationId = some operation
  pending : operation.commit = none
  checksum : frame.preparedChecksum = some operation.preparedChecksum
  current : state.storages.get? operation.storageId = operation.storageStateBefore
  expected : frame.expectedStorage = expectedStorageState operation.storageStateBefore
  sameStorage : frame.storageState.storageId = operation.storageId
  transition : assertStorageTransition operation.storageStateBefore frame.storageState operation.kind
  origin_eq : committedAttachmentOrigin state operation frame.storageState = some origin

namespace GenerationState

variable (state : GenerationState)

/-- The state after an accepted prepared frame. -/
def prepare (frame : PreparedFrame) (checksum : Checksum) : GenerationState :=
  { state with
    operations := state.operations.set frame.operationId (makePreparedRecord frame checksum)
    stateRevision := revisionOf frame.stateRevision }

/-- The state after an accepted committed frame. -/
def complete (frame : CommittedFrame) (operation : Operation) (origin : Option OpaqueId) :
    GenerationState :=
  { state with
    operations := state.operations.set frame.operationId (makeCommittedRecord operation frame)
    storages := state.storages.set operation.storageId frame.storageState
    attachmentOrigins := state.attachmentOrigins.set operation.storageId origin
    stateRevision := revisionOf frame.stateRevision }

end GenerationState

/-- What an accepted frame does. -/
inductive Applied (state : GenerationState) (checksum : Checksum) :
    DeltaFrame → Operation → GenerationState → Prop where
  | prepared {frame} (accepted : Prepares state frame) :
      Applied state checksum (.prepared frame) (makePreparedRecord frame checksum)
        (state.prepare frame checksum)
  | committed {frame operation origin} (accepted : Commits state frame operation origin) :
      Applied state checksum (.committed frame) (makeCommittedRecord operation frame)
        (state.complete frame operation origin)

section Accepted

variable {state next : GenerationState} {checksum : Checksum} {record : Operation}

theorem applyPreparedFrame_eq_some_iff {frame : PreparedFrame} :
    applyPreparedFrame state frame checksum = some (record, next) ↔
      Prepares state frame ∧ makePreparedRecord frame checksum = record ∧
        state.prepare frame checksum = next := by
  simp only [applyPreparedFrame, Option.bind_eq_bind, Option.bind_eq_some_iff, ensure_eq_some_iff,
    exists_const, Option.some.injEq, Prod.mk.injEq, JsMap.has_eq_false, pendingOperationForStorage_eq_none]
  constructor
  · rintro ⟨fresh, ⟨idle, current⟩, allowed, made, after⟩
    exact ⟨⟨fresh, idle, current, current ▸ allowed⟩, made, after⟩
  · rintro ⟨⟨fresh, idle, current, allowed⟩, made, after⟩
    exact ⟨fresh, ⟨idle, current⟩, current ▸ allowed, made, after⟩

theorem applyCommittedFrame_eq_some_iff {frame : CommittedFrame} :
    applyCommittedFrame state frame = some (record, next) ↔
      ∃ operation origin, Commits state frame operation origin ∧
        makeCommittedRecord operation frame = record ∧ state.complete frame operation origin = next := by
  simp only [applyCommittedFrame, Option.bind_eq_bind, Option.bind_eq_some_iff, ensure_eq_some_iff,
    exists_const, Option.some.injEq, Prod.mk.injEq]
  constructor
  · rintro ⟨operation, found, ⟨pending, checksum⟩, ⟨current, expected, same⟩, transition, origin,
      origin_eq, made, after⟩
    rw [current] at expected transition
    exact ⟨operation, origin,
      ⟨found, pending, checksum.symm, current, expected, same, transition, origin_eq⟩, made, after⟩
  · rintro ⟨operation, origin,
      ⟨found, pending, checksum, current, expected, same, transition, origin_eq⟩, made, after⟩
    rw [← current] at expected transition
    exact ⟨operation, found, ⟨pending, checksum.symm⟩, ⟨current, expected, same⟩, transition, origin,
      origin_eq, made, after⟩

theorem applyDeltaFrame_eq_some_iff {frame : DeltaFrame} {expectedSequence : Nat} :
    applyDeltaFrame state frame checksum expectedSequence = some (record, next) ↔
      Follows state frame expectedSequence ∧ Applied state checksum frame record next := by
  simp only [applyDeltaFrame, Option.bind_eq_bind, Option.bind_eq_some_iff, ensure_eq_some_iff,
    exists_const]
  refine and_congr_right fun _ => ?_
  cases frame with
  | prepared frame =>
      rw [applyPreparedFrame_eq_some_iff]
      constructor
      · rintro ⟨accepted, rfl, rfl⟩
        exact .prepared accepted
      · rintro ⟨accepted⟩
        exact ⟨accepted, rfl, rfl⟩
  | committed frame =>
      rw [applyCommittedFrame_eq_some_iff]
      constructor
      · rintro ⟨operation, origin, accepted, rfl, rfl⟩
        exact .committed accepted
      · rintro ⟨⟩
        rename_i operation origin accepted
        exact ⟨operation, origin, accepted, rfl, rfl⟩

end Accepted

end PortableCodex.ProviderState
