import PortableCodex.Authority.OperationIndexSteps
import PortableCodex.HeadAnchor.HeadAnchorLaws

/-!
Runs of a provider together with the index of its authority.

Each append of the provider goes to the authority as a transition, with the record that was read back. A run keeps
the index in step with the state (`IndexedRun.inStep`), so every attached storage has the row of its attachment and
every projection is confirmed (`originLaws`), and the authority refuses no transition but that of an operation id
that it has seen before (`advanceLaws`).
-/

namespace PortableCodex.Authority

open Js ProviderState HeadAnchor

/-- The transition of a frame and the record it makes. -/
def Transition.ofFrame (frameChecksum : Checksum) (record : Operation) : DeltaFrame → Transition
  | .prepared _ => .appendPrepared frameChecksum record
  | .committed _ => .appendCommitted frameChecksum record

/-- The transition that `appendDeltaEvent` proposes together with its head: the record of the frame that it has
read back. -/
def appendTransition (cache : GenerationCache) (event : DeltaEvent) : Option Transition := do
  let encoded ← encodeDeltaEvent cache.head event
  let (record, _) ← applyDeltaFrame cache.state encoded.frame encoded.checksum encoded.frame.sequence.val
  some (.ofFrame encoded.checksum record encoded.frame)

def genesisIndex : OperationIndex where
  head := (genesisCache .v3).head
  operationIndexStateRevision := ⟨0, uint64_zero⟩
  operations := .empty

/-- A provider and its authority from the empty state on; every advance is acknowledged. -/
inductive IndexedRun : GenerationCache → OperationIndex → Prop where
  | genesis : IndexedRun (genesisCache .v3) genesisIndex
  | appended {cache index event transition next indexed} : IndexedRun cache index →
      appendDeltaEvent cache event = some next → appendTransition cache event = some transition →
      index.compareAndAdvance cache.head next.head transition = some (some indexed) → IndexedRun next indexed
  | rotated {cache index next indexed} : IndexedRun cache index → rotateGeneration cache = some next →
      index.compareAndAdvance cache.head next.head .rotate = some (some indexed) → IndexedRun next indexed

/-! ### What an advance writes -/

section Advances

variable {index indexed : OperationIndex} {expectedHead nextHead : LedgerHead} {transition : Transition}

theorem compareAndAdvance_eq_some_iff :
    index.compareAndAdvance expectedHead nextHead transition = some (some indexed) ↔
      transition.Normal expectedHead nextHead ∧ index.head = expectedHead ∧
        (expectedHead.contractVersion = .v3 ∧ nextHead.contractVersion = .v3) ∧
        index.operationIndexStateRevision = expectedHead.stateRevision ∧
        ∃ operations, index.advanceOperations transition = some operations ∧
          indexed = { head := nextHead, operationIndexStateRevision := nextHead.stateRevision, operations } := by
  unfold OperationIndex.compareAndAdvance
  by_cases same : index.head = expectedHead
  · simp only [Option.bind_eq_bind, Option.bind_eq_some_iff, ensure_eq_some_iff, exists_const, ne_eq, same,
      not_true_eq_false, if_false, Option.some.injEq, true_and]
    simp only [eq_comm]
  · simp only [Option.bind_eq_bind, Option.bind_eq_some_iff, ensure_eq_some_iff, exists_const, ne_eq, same,
      not_false_eq_true, if_true, Option.some.injEq, reduceCtorEq, and_false, false_and]

theorem advanceOperations_prepared {checksum : Checksum} {record : Operation}
    {operations : JsMap OpaqueId OperationRow}
    (h : index.advanceOperations (.appendPrepared checksum record) = some operations) :
    index.operations.get? record.operationId = none ∧
      operations = index.operations.set record.operationId { record, committedChecksum := none } := by
  simp only [OperationIndex.advanceOperations, OperationIndex.insertPrepared, Option.bind_eq_bind,
    Option.bind_eq_some_iff, ensure_eq_some_iff, exists_const, Option.some.injEq] at h
  obtain ⟨_, -, ⟨fresh, -, -⟩, rfl⟩ := h
  exact ⟨fresh, rfl⟩

theorem advanceOperations_committed {checksum : Checksum} {record : Operation}
    {operations : JsMap OpaqueId OperationRow}
    (h : index.advanceOperations (.appendCommitted checksum record) = some operations) :
    operations = index.operations.set record.operationId { record, committedChecksum := some checksum } := by
  simp only [OperationIndex.advanceOperations, OperationIndex.updateCommitted, Option.bind_eq_bind,
    Option.bind_eq_some_iff, ensure_eq_some_iff, exists_const, Option.some.injEq] at h
  obtain ⟨_, -, _, -, -, -, rfl⟩ := h
  rfl

end Advances

/-! ### In step -/

/-- The index is in step with the cache of the provider. -/
structure InStep (cache : GenerationCache) (index : OperationIndex) : Prop where
  backed : Backed cache
  version : cache.head.contractVersion = .v3
  mirrors : index.Mirrors cache.head cache.state
  roomy : OperationIndex.Roomy cache.head cache.state
  latest : ∀ id, index.Latest id (cache.state.storages.get? id)

theorem inStep_genesis : InStep (genesisCache .v3) genesisIndex where
  backed := backed_genesis .v3
  version := rfl
  mirrors := {
    head_eq := rfl
    revision_eq := rfl
    keyed := by rintro _ _ ⟨⟩
    visible := by rintro _ _ ⟨⟩
    pending := by
      intro id operation
      constructor
      · rintro ⟨⟨⟩, -⟩
      · rintro ⟨-, ⟨⟩⟩
    unstamped := by rintro _ _ ⟨⟩
    attached := by rintro _ _ ⟨⟩ }
  roomy := ⟨Nat.zero_le _, Nat.zero_le _⟩
  latest := by rintro _ _ _ ⟨⟩

section Steps

variable {cache next : GenerationCache} {index indexed : OperationIndex} {event : DeltaEvent}
  {transition : Transition}

/-- What an append applies, and the transition it proposes. -/
theorem appendTransition_eq (loaded : Loaded cache) (appends : appendDeltaEvent cache event = some next) :
    ∃ checksum frame record, Applied cache.state checksum frame record next.state ∧
      next.head.lastChecksum = some checksum ∧ frame.stateRevision.val = next.head.stateRevision.val ∧
      appendTransition cache event = some (.ofFrame checksum record frame) := by
  obtain ⟨encoded, record, encodes, applied, last, revision⟩ := appendDeltaEvent_applied loaded appends
  refine ⟨encoded.checksum, encoded.frame, record, (applyDeltaFrame_eq_some_iff.mp applied).2, last, ?_, ?_⟩
  · rw [revision]
    rfl
  · exact read_then encodes (read_then applied rfl)

/-- The frame of an encoded event is the event in its place. -/
theorem encodeDeltaEvent_eventFrame {head : LedgerHead} {encoded : Encoded DeltaFrame}
    (encodes : encodeDeltaEvent head event = some encoded) : ∃ sequence stateRevision,
      encoded.frame = event.frame head.contractVersion head.lastChecksum sequence stateRevision := by
  obtain ⟨inside, stateRevision, -, rfl⟩ := encodeDeltaEvent_frame encodes
  exact ⟨_, stateRevision, rfl⟩

/-- An encoded event has the next place in the ledger and the next revision. -/
theorem InStep.follows (h : InStep cache index) {encoded : Encoded DeltaFrame}
    (encodes : encodeDeltaEvent cache.head event = some encoded) :
    Follows cache.state encoded.frame encoded.frame.sequence.val := by
  have anchors := h.backed.anchors
  have revision := (encodeDeltaEvent_eq_some encodes).2.2
  have bound := encoded.frame.stateRevision.property.2
  refine ⟨?_, rfl, ?_⟩
  · rw [← anchors.version, (encodeDeltaEvent_linked encodes).1]
  · rw [← anchors.stateRevision, revision, incrementNonnegativeUint64, if_pos (by omega)]

theorem InStep.appended (h : InStep cache index) (appends : appendDeltaEvent cache event = some next)
    (proposes : appendTransition cache event = some transition)
    (advanced : index.compareAndAdvance cache.head next.head transition = some (some indexed)) :
    InStep next indexed := by
  obtain ⟨checksum, frame, record, step, last, revision, proposal⟩ := appendTransition_eq h.backed.loaded appends
  obtain rfl := Option.some.inj (proposal.symm.trans proposes)
  obtain ⟨-, -, ⟨-, version⟩, -, operations, written, rfl⟩ := compareAndAdvance_eq_some_iff.mp advanced
  have head := appendDeltaEvent_appended appends
  have later : cache.head.stateRevision.val < next.head.stateRevision.val := by
    rw [head.stateRevision]
    exact Nat.lt_succ_self _
  suffices facts : OperationIndex.Mirrors
        { head := next.head, operationIndexStateRevision := next.head.stateRevision, operations }
          next.head next.state ∧
      ∀ id, OperationIndex.Latest
        { head := next.head, operationIndexStateRevision := next.head.stateRevision, operations } id
          (next.state.storages.get? id) from
    ⟨h.backed.appended appends, version, facts.1, Roomy.append h.roomy head step, facts.2⟩
  generalize next.state = state at step ⊢
  cases step with
  | prepared accepted =>
      obtain ⟨fresh, rfl⟩ := advanceOperations_prepared written
      refine ⟨h.mirrors.prepare fresh later revision last, fun id => (h.latest id).set rfl ?_ fun _ => rfl⟩
      intro old found
      rw [fresh] at found
      cases found
  | committed accepted =>
      rename_i frame operation origin
      obtain rfl := advanceOperations_committed written
      have keyed := h.backed.reached.invariant.keyed
      have key : operation.operationId = frame.operationId := keyed.operations accepted.found
      have mirrors := h.mirrors.complete accepted keyed later revision last
      rw [← key] at mirrors
      refine ⟨mirrors, fun id => ?_⟩
      show OperationIndex.Latest _ id ((cache.state.storages.set _ _).get? id)
      rw [JsMap.get?_set]
      split
      · rename_i same
        refine OperationIndex.Latest.commit {
          committedStateRevision := frame.stateRevision, expectedStorage := frame.expectedStorage
          result := frame.result, storageState := frame.storageState } rfl same.symm rfl ?_
        intro i row earlier found committed
        have bound := ((h.mirrors.visible found).2.2 earlier committed).1
        show earlier.committedStateRevision.val < frame.stateRevision.val
        change frame.stateRevision.val = _ at revision
        omega
      · rename_i other
        refine (h.latest id).set rfl ?_ fun same => absurd same.symm other
        intro old found
        change index.operations.get? operation.operationId = some old at found
        rw [key, (h.mirrors.pending.mp ⟨accepted.found, accepted.pending⟩).2] at found
        obtain rfl := Option.some.inj found
        exact accepted.pending

theorem InStep.rotated (h : InStep cache index) (rotates : rotateGeneration cache = some next)
    (advanced : index.compareAndAdvance cache.head next.head .rotate = some (some indexed)) :
    InStep next indexed := by
  obtain ⟨normal, -, ⟨-, version⟩, -, operations, written, rfl⟩ := compareAndAdvance_eq_some_iff.mp advanced
  obtain rfl := Option.some.inj written
  have backed := h.backed.rotated rotates
  obtain ⟨noFrames, -, -⟩ := rotateGeneration_empty rotates
  obtain ⟨result, rotated, same⟩ := Option.bind_eq_some_iff.mp rotates
  obtain rfl := Option.some.inj same
  have reached := h.backed.reached
  obtain ⟨snapshot, facts⟩ := rotation_eq_some reached.invariant.keyed h.backed.anchors rotated
  have ends : ¬ HeadEndsInOperationFrame result.head := by
    obtain ⟨-, -, generation, -⟩ := normal
    change decimalSuccessor cache.head.generation result.head.generation at generation
    change result.head.frameCount.val = 0 at noFrames
    unfold decimalSuccessor at generation
    rintro (first | frames) <;> omega
  have revision : result.head.stateRevision = cache.head.stateRevision :=
    facts.anchors.stateRevision.trans h.backed.anchors.stateRevision.symm
  refine ⟨backed, version, h.mirrors.rotate reached facts revision ends, Roomy.rotate reached rotated facts, ?_⟩
  intro id
  show OperationIndex.Latest _ id (result.state.storages.get? id)
  rw [facts.storages reached.invariant.keyed]
  exact (h.latest id).congr rfl

end Steps

theorem IndexedRun.inStep {cache : GenerationCache} {index : OperationIndex} (run : IndexedRun cache index) :
    InStep cache index := by
  induction run with
  | genesis => exact inStep_genesis
  | appended _ appends proposes advanced ih => exact ih.appended appends proposes advanced
  | rotated _ rotates advanced ih => exact ih.rotated rotates advanced

/-! ### Accepted transitions -/

section Accepts

variable {cache next : GenerationCache} {index : OperationIndex} {event : DeltaEvent} {transition : Transition}

/-- No row has the id of an operation that is to be prepared. -/
def Transition.Fresh (index : OperationIndex) : Transition → Prop
  | .appendPrepared _ record => index.operations.get? record.operationId = none
  | .appendCommitted _ _ => True
  | .rotate => True

/-- A revision behind the head has no row. -/
theorem InStep.unclaimed (h : InStep cache index) {revision : Nat} (later : cache.head.stateRevision.val < revision) :
    ¬ index.Claimed revision := by
  rintro ⟨row, inside, claims⟩
  obtain ⟨id, found⟩ := JsMap.mem_values.mp inside
  obtain ⟨prepared, -, committed⟩ := h.mirrors.visible found
  rcases claims with same | ⟨commit, member, same⟩
  · omega
  · have bound := (committed commit member).1
    omega

theorem InStep.requireStorageBefore (h : InStep cache index) {record : Operation}
    (current : cache.state.storages.get? record.storageId = record.storageStateBefore) :
    index.requireStorageBefore record = some () := by
  have latest := OperationIndex.readLatestCommittedStorageState_eq h.mirrors.keyed
    (fun row inside => h.mirrors.mem_values inside) (h.latest record.storageId)
  exact read_then latest (ensure_pos current)

theorem InStep.insertPrepared (h : InStep cache index) {frame : PreparedFrame} (checksum : Checksum)
    (accepted : Prepares cache.state frame) (later : cache.head.stateRevision.val < frame.stateRevision.val)
    (fresh : index.operations.get? frame.operationId = none) :
    ∃ operations, index.insertPrepared (makePreparedRecord frame checksum) = some operations := by
  refine ⟨_, read_then (ensure_pos ⟨fresh, ?_, h.unclaimed later⟩) rfl⟩
  intro row inside pending
  have found := h.mirrors.keyed.mem_values.mp inside
  have held : Pending cache.state row.record.operationId row.record := by
    refine h.mirrors.pending.mpr ⟨pending, found.trans (congrArg some ?_)⟩
    rw [← h.mirrors.unstamped found pending]
  exact accepted.idle _ _ held.1 pending

theorem InStep.updateCommitted (h : InStep cache index) {frame : CommittedFrame} {operation : Operation}
    {origin : Option OpaqueId} (checksum : Checksum) (accepted : Commits cache.state frame operation origin)
    (later : cache.head.stateRevision.val < frame.stateRevision.val) :
    ∃ operations, index.updateCommitted (makeCommittedRecord operation frame) checksum = some operations := by
  have held := (h.mirrors.pending.mp ⟨accepted.found, accepted.pending⟩).2
  have key : operation.operationId = frame.operationId :=
    h.backed.reached.invariant.keyed.operations accepted.found
  have prepared := (h.mirrors.visible held).1
  have row : index.operations.get? (makeCommittedRecord operation frame).operationId =
      some { record := { makeCommittedRecord operation frame with commit := none }, committedChecksum := none } := by
    have same : { makeCommittedRecord operation frame with commit := none } = operation := by
      have pending := accepted.pending
      cases operation
      dsimp only at pending
      subst pending
      rfl
    rw [same]
    show index.operations.get? operation.operationId = _
    rw [key]
    exact held
  refine ⟨_, read_then rfl (read_then (ensure_pos row) (read_then (ensure_pos ⟨?_, h.unclaimed later⟩) rfl))⟩
  exact lt_of_le_of_lt prepared later

/-- The authority takes an append, unless it has a row with the id of the operation to be prepared. -/
theorem InStep.accepts (h : InStep cache index) (appends : appendDeltaEvent cache event = some next) :
    ∃ transition, appendTransition cache event = some transition ∧
      ((∃ indexed, index.compareAndAdvance cache.head next.head transition = some (some indexed)) ↔
        transition.Fresh index) := by
  obtain ⟨checksum, frame, record, step, last, revision, proposal⟩ := appendTransition_eq h.backed.loaded appends
  have head := appendDeltaEvent_appended appends
  have normal := isNormalAppend_of_appended head
  have later : cache.head.stateRevision.val < frame.stateRevision.val := by
    rw [revision, head.stateRevision]
    exact Nat.lt_succ_self _
  have version : next.head.contractVersion = .v3 := head.contractVersion.trans h.version
  refine ⟨_, proposal, ?_⟩
  simp only [compareAndAdvance_eq_some_iff]
  generalize next.state = state at step
  cases step with
  | prepared accepted =>
      rename_i frame
      constructor
      · rintro ⟨_, -, -, -, -, operations, written, -⟩
        exact (advanceOperations_prepared written).1
      · intro fresh
        obtain ⟨operations, written⟩ := h.insertPrepared checksum accepted later fresh
        refine ⟨_, ⟨rfl, normal, last.symm, revision, rfl⟩, h.mirrors.head_eq, ⟨h.version, version⟩,
          h.mirrors.revision_eq, operations, ?_, rfl⟩
        exact read_then (h.requireStorageBefore accepted.current) written
  | committed accepted =>
      rename_i frame operation origin
      refine iff_of_true ?_ True.intro
      obtain ⟨operations, written⟩ := h.updateCommitted checksum accepted later
      refine ⟨_, ⟨⟨_, rfl, revision⟩, normal, last.symm⟩, h.mirrors.head_eq, ⟨h.version, version⟩,
        h.mirrors.revision_eq, operations, ?_, rfl⟩
      exact read_then (h.requireStorageBefore accepted.current) written

theorem InStep.acceptsRotation (h : InStep cache index) (hasFrames : cache.head.frameCount.val ≠ 0)
    (rotates : rotateGeneration cache = some next) :
    ∃ indexed, index.compareAndAdvance cache.head next.head .rotate = some (some indexed) := by
  have head := rotateGeneration_rotated hasFrames rotates
  refine ⟨_, compareAndAdvance_eq_some_iff.mpr ⟨isPureRotation_of_rotated head, h.mirrors.head_eq,
    ⟨h.version, head.contractVersion.trans h.version⟩, h.mirrors.revision_eq, _, rfl, rfl⟩⟩

end Accepts

/-! ### A run that attaches a storage -/

/-- A provider that has appended a few frames, and rows for the same operations. -/
structure Young (n : Nat) (cache : GenerationCache) (index : OperationIndex) : Prop where
  run : IndexedRun cache index
  anchorRevision : cache.head.anchorRevision.val = n
  stateRevision : cache.head.stateRevision.val = n
  frameCount : cache.head.frameCount.val = n
  ledgerBytes : cache.head.ledgerBytes.val ≤ n * (96 + framePayloadBound)
  sized : SizedBy n cache.state
  same : ∀ id, cache.state.operations.get? id = none → index.operations.get? id = none

/-- The event is appended, and the authority takes it. -/
def Writes (cache : GenerationCache) (index : OperationIndex) (event : DeltaEvent) (next : GenerationCache)
    (indexed : OperationIndex) : Prop :=
  appendDeltaEvent cache event = some next ∧ ∃ transition, appendTransition cache event = some transition ∧
    index.compareAndAdvance cache.head next.head transition = some (some indexed)

section Growing

variable {n : Nat} {cache : GenerationCache} {index : OperationIndex}

theorem Young.canAdvance (young : Young n cache index) (few : n < 8) : CanAdvance cache.head := by
  have anchor := young.anchorRevision
  unfold CanAdvance
  omega

/-- An event has its place behind a few frames. -/
theorem Young.encodes (young : Young n cache index) (few : n < 8) (event : DeltaEvent) :
    ∃ encoded, encodeDeltaEvent cache.head event = some encoded ∧
      cache.head.ledgerBytes.val + encoded.bytes.length ≤ (n + 1) * (96 + framePayloadBound) ∧
      cache.head.ledgerBytes.val + encoded.bytes.length ≤ maxLedgerBytes := by
  have frames := young.frameCount
  have state := young.stateRevision
  have bytes := young.ledgerBytes
  have place : cache.head.frameCount.val < maxFrameCount := by
    unfold maxFrameCount
    omega
  obtain ⟨encoded, encodes⟩ := encodeDeltaEvent_isSome event place (by omega)
  have short : encoded.bytes.length ≤ 96 + framePayloadBound := by
    rw [(encodeDeltaEvent_eq_some encodes).1]
    exact encoding_length_le encoded.frame.within
  have bound : (n + 1) * (96 + framePayloadBound) ≤ 8 * (96 + framePayloadBound) := Nat.mul_le_mul_right _ few
  have limit : 8 * (96 + framePayloadBound) ≤ maxLedgerBytes := by decide
  rw [Nat.succ_mul] at bound ⊢
  exact ⟨encoded, encodes, by omega, by omega⟩

theorem Young.extend (young : Young n cache index) (few : n < 8) (event : DeltaEvent) {P : GenerationState → Prop}
    (applies : ∀ version previous sequence revision checksum, ∃ record state,
      Applied cache.state checksum (event.frame version previous sequence revision) record state ∧ P state) :
    ∃ next indexed, Young (n + 1) next indexed ∧ P next.state ∧ Writes cache index event next indexed := by
  have inStep := young.run.inStep
  have room := young.canAdvance few
  obtain ⟨encoded, encodes, small, fits⟩ := young.encodes few event
  obtain ⟨run, anchor, state, frames, bytes, sized, same⟩ := young
  obtain ⟨nextHead, head⟩ := appendedHead_isSome encodes room fits
  obtain ⟨sequence, stateRevision, frame⟩ := encodeDeltaEvent_eventFrame encodes
  obtain ⟨record, after, step, holds⟩ := applies cache.head.contractVersion cache.head.lastChecksum sequence
    stateRevision encoded.checksum
  rw [← frame] at step
  have applied := applyDeltaFrame_eq_some_iff.mpr ⟨inStep.follows encodes, step⟩
  have appends := appendDeltaEvent_of_applied inStep.backed.loaded encodes head (encodeDeltaEvent_linked encodes).2
    applied
  obtain ⟨transition, proposes, taken⟩ := inStep.accepts appends
  obtain rfl := Option.some.inj (proposes.symm.trans (read_then encodes (read_then applied rfl)))
  have counted := appendDeltaEvent_appended appends
  have total := (appendedHead_written head).1
  have fresh : (Transition.ofFrame encoded.checksum record encoded.frame).Fresh index := by
    generalize encoded.frame = frame at step
    cases step with
    | prepared accepted => exact same _ accepted.fresh
    | committed accepted => exact True.intro
  obtain ⟨indexed, advanced⟩ := taken.mpr fresh
  refine ⟨_, indexed, ⟨run.appended appends proposes advanced, ?_, ?_, ?_, ?_, sized.applied applied, ?_⟩, holds,
    appends, _, proposes, advanced⟩
  · rw [counted.anchorRevision, anchor]
  · rw [counted.stateRevision, state]
  · rw [counted.frameCount, frames]
  · show nextHead.ledgerBytes.val ≤ _
    rw [total]
    exact small
  · have kept {key id : OpaqueId} {operation : Operation} {row : OperationRow}
        (absent : (cache.state.operations.set key operation).get? id = none) :
        (index.operations.set key row).get? id = none := by
      rw [JsMap.get?_set] at absent ⊢
      split at absent
      · cases absent
      · rename_i other
        rw [if_neg other]
        exact same id absent
    intro id absent
    obtain ⟨-, -, -, -, operations, written, rfl⟩ := compareAndAdvance_eq_some_iff.mp advanced
    change after.operations.get? id = none at absent
    generalize encoded.frame = frame at step written
    cases step with
    | prepared accepted =>
        obtain ⟨-, rfl⟩ := advanceOperations_prepared written
        exact kept absent
    | committed accepted =>
        rename_i committed operation origin
        obtain rfl := advanceOperations_committed written
        have key : operation.operationId = committed.operationId :=
          inStep.backed.reached.invariant.keyed.operations accepted.found
        show (index.operations.set operation.operationId _).get? id = none
        rw [key]
        exact kept absent

/-- The storage of the run, with every operation committed. -/
structure Settled (used : List OpaqueId) (storage : Option StorageState) (state : GenerationState) : Prop where
  committed : ∀ id operation, state.operations.get? id = some operation → operation.commit ≠ none ∧ id ∈ used
  storage_eq : state.storages.get? firstStorage.storageId = storage

/-- The storage of the run, with one operation prepared. -/
structure Preparing (used : List OpaqueId) (storage : Option StorageState) (operation : Operation)
    (state : GenerationState) : Prop where
  found : state.operations.get? operation.operationId = some operation
  pending : operation.commit = none
  request : operation.request = ⟨.object [], rfl⟩
  storageId : operation.storageId = firstStorage.storageId
  before : operation.storageStateBefore = storage
  others : ∀ id other, state.operations.get? id = some other → id ≠ operation.operationId →
    other.commit ≠ none ∧ id ∈ used
  storage_eq : state.storages.get? firstStorage.storageId = storage

variable {used : List OpaqueId} {storage : Option StorageState}

/-- What a storage is prepared for. -/
def Prepares (used : List OpaqueId) (storage : Option StorageState) (operationId : OpaqueId) (kind : Kind)
    (state : GenerationState) : Prop :=
  ∃ operation, operation.operationId = operationId ∧ operation.kind = kind ∧ Preparing used storage operation state

theorem Settled.prepares {state : GenerationState} (settled : Settled used storage state) (kind : Kind)
    (operationId : OpaqueId) (fresh : operationId ∉ used) (allowed : assertPreparePrecondition storage kind)
    (version : Version) (previous : Option Checksum) (sequence : Sequence) (revision : PositiveUint64)
    (checksum : Checksum) : ∃ record after,
      Applied state checksum (DeltaEvent.frame version previous sequence revision (.prepared kind operationId
        ⟨.object [], rfl⟩ firstStorage.storageId storage)) record after ∧
      Prepares used storage operationId kind after := by
  have absent : state.operations.get? operationId = none := by
    cases held : state.operations.get? operationId with
    | none => rfl
    | some operation => exact absurd (settled.committed _ _ held).2 fresh
  let frame : PreparedFrame := {
    contractVersion := version, kind, operationId, previousChecksum := previous, request := ⟨.object [], rfl⟩
    sequence, stateRevision := revision, storageId := firstStorage.storageId, storageStateBefore := storage }
  refine ⟨makePreparedRecord frame checksum, state.prepare frame checksum,
    .prepared ⟨absent, ?_, settled.storage_eq, allowed⟩, makePreparedRecord frame checksum, rfl, rfl, ?_⟩
  · intro id operation found pending
    exact absurd pending (settled.committed id operation found).1
  · refine ⟨JsMap.get?_set_self, rfl, rfl, rfl, rfl, ?_, settled.storage_eq⟩
    intro id other found ne
    change (state.operations.set frame.operationId _).get? id = _ at found
    rw [JsMap.get?_set_of_ne (show id ≠ frame.operationId from ne)] at found
    exact settled.committed id other found

theorem Preparing.commits {state : GenerationState} {operation : Operation}
    (preparing : Preparing used storage operation state) (next : StorageState)
    (transition : assertStorageTransition storage next operation.kind)
    (sameStorage : next.storageId = firstStorage.storageId)
    (detached : operation.kind ∈ [.provision, .detach, .destroy] → next.lifecycle ≠ .attached)
    (version : Version) (previous : Option Checksum) (sequence : Sequence) (revision : PositiveUint64)
    (checksum : Checksum) : ∃ record after,
      Applied state checksum (DeltaEvent.frame version previous sequence revision (.committed
        (expectedStorageState storage) operation.operationId (some operation.preparedChecksum) ⟨.object [], rfl⟩
        next)) record after ∧
      Settled (operation.operationId :: used) (some next) after := by
  have origin_eq : ∃ origin, committedAttachmentOrigin state operation next = some origin := by
    unfold committedAttachmentOrigin
    cases kind : operation.kind with
    | provision => exact ⟨_, read_then (ensure_pos (detached (by rw [kind]; decide))) rfl⟩
    | detach => exact ⟨_, read_then (ensure_pos (detached (by rw [kind]; decide))) rfl⟩
    | destroy => exact ⟨_, read_then (ensure_pos (detached (by rw [kind]; decide))) rfl⟩
    | attach => exact ⟨_, rfl⟩
    | restoreAttach => exact ⟨_, rfl⟩
    | checkpoint => exact ⟨_, rfl⟩
    | restore => exact ⟨_, rfl⟩
  obtain ⟨origin, origin_eq⟩ := origin_eq
  refine ⟨_, _, .committed ⟨preparing.found, preparing.pending, rfl, ?_, ?_, ?_, ?_, origin_eq⟩, ?_, ?_⟩
  · rw [preparing.storageId, preparing.storage_eq, preparing.before]
  · rw [preparing.before]
  · exact sameStorage.trans preparing.storageId.symm
  · rw [preparing.before]
    exact transition
  · intro id other found
    change (state.operations.set _ _).get? id = _ at found
    rw [JsMap.get?_set] at found
    split at found
    · rename_i same
      obtain rfl := Option.some.inj found
      exact ⟨Option.some_ne_none _, same ▸ List.mem_cons_self⟩
    · rename_i ne
      obtain ⟨committed, member⟩ := preparing.others id other found ne
      exact ⟨committed, List.mem_cons_of_mem _ member⟩
  · show (state.storages.set operation.storageId _).get? firstStorage.storageId = _
    rw [preparing.storageId]
    exact JsMap.get?_set_self

/-- One operation of the run: it is prepared and committed. -/
theorem Young.operate (young : Young n cache index) (few : n + 1 < 8) (settled : Settled used storage cache.state)
    (kind : Kind) (operationId : OpaqueId) (next : StorageState) (fresh : operationId ∉ used)
    (allowed : assertPreparePrecondition storage kind) (transition : assertStorageTransition storage next kind)
    (sameStorage : next.storageId = firstStorage.storageId)
    (detached : kind ∈ [.provision, .detach, .destroy] → next.lifecycle ≠ .attached) :
    ∃ cache' index', Young (n + 2) cache' index' ∧ Settled (operationId :: used) (some next) cache'.state := by
  obtain ⟨_, _, prepared, ⟨operation, rfl, rfl, preparing⟩, -⟩ :=
    young.extend (by omega) _ (settled.prepares kind operationId fresh allowed)
  obtain ⟨cache', index', committed, settled, -⟩ :=
    prepared.extend few _ (preparing.commits next transition sameStorage detached)
  exact ⟨cache', index', committed, settled⟩

end Growing

theorem young_genesis : Young 0 (genesisCache .v3) genesisIndex :=
  ⟨.genesis, rfl, rfl, rfl, Nat.zero_le _, ⟨le_rfl, le_rfl⟩, fun _ _ => rfl⟩

theorem settled_genesis : Settled [] none (genesisCache .v3).state := ⟨by rintro _ _ ⟨⟩, rfl⟩

theorem positiveUint64_three : 0 < 3 ∧ 3 < 2 ^ 64 := by decide

/-- The same storage behind a checkpoint. -/
def checkpointedStorage : StorageState where
  toStorageRecord := { attachedStorage.toStorageRecord with revision := ⟨3, positiveUint64_three⟩ }
  consistent := attachedStorage.consistent

/-- A run that provisions a storage, attaches it and takes a checkpoint. -/
theorem exists_attachedRun : ∃ cache index, IndexedRun cache index ∧
    cache.state.storages.get? firstStorage.storageId = some checkpointedStorage := by
  obtain ⟨cache, index, young, settled⟩ := young_genesis.operate (by omega) settled_genesis .provision ⟨js "provision", by decide⟩
    firstStorage (by decide) rfl (by decide) rfl fun _ => by decide
  obtain ⟨cache, index, young, settled⟩ := young.operate (by omega) settled .attach ⟨js "attach", by decide⟩
    attachedStorage (by decide) (by decide) (by decide) rfl fun no => absurd no (by decide)
  obtain ⟨cache, index, young, settled⟩ := young.operate (by omega) settled .checkpoint
    ⟨js "checkpoint", by decide⟩ checkpointedStorage (by decide) (by decide) (by decide) rfl
    fun no => absurd no (by decide)
  exact ⟨cache, index, young.run, settled.storage_eq⟩

/-! ### Origins -/

variable {cache : GenerationCache} {index : OperationIndex}

/-- What a run keeps true of attachments, between the state and the rows. -/
structure OriginLaws (cache : GenerationCache) (index : OperationIndex) : Prop where
  /-- A storage is attached if and only if it has an origin. -/
  attached_iff : ∀ id storage, cache.state.storages.get? id = some storage →
    (storage.lifecycle = .attached ↔ ∃ operationId, cache.state.attachmentOrigins.get? id = some (some operationId))
  /-- The origin is the last committed attachment, and the storage has kept the state it committed but for the
  revision. -/
  origins : ∀ id storage operationId, cache.state.storages.get? id = some storage →
    cache.state.attachmentOrigins.get? id = some (some operationId) → ∃ row commit,
      index.Attached id storage operationId row commit ∧
      stableStorageProjectionChecksum commit.storageState = stableStorageProjectionChecksum storage
  /-- The authority confirms the projection of the state. -/
  validated : ∃ projection, authorityProjectionRequest cache.head cache.state = some projection ∧
    validateV3AuthorityProjection index.compareProjection cache.head cache.state = some projection.expectedReceipt

/-- In every run the state and the rows agree on the attachments, and the authority confirms their projection. -/
theorem originLaws (run : IndexedRun cache index) : OriginLaws cache index := by
  have inStep := run.inStep
  have invariant := inStep.backed.reached.invariant
  have attached_iff : ∀ id storage, cache.state.storages.get? id = some storage →
      (storage.lifecycle = .attached ↔
        ∃ operationId, cache.state.attachmentOrigins.get? id = some (some operationId)) := by
    intro id storage found
    have matched := invariant.origins id
    rw [found] at matched
    cases origin : cache.state.attachmentOrigins.get? id with
    | none =>
        rw [origin] at matched
        exact matched.elim
    | some origin' =>
        rw [origin] at matched
        change _ ↔ origin' ≠ none at matched
        rw [matched, Option.ne_none_iff_exists']
        simp only [Option.some.injEq]
  refine ⟨attached_iff, ?_, ?_⟩
  · intro id storage operationId found origin
    obtain ⟨other, row, commit, same, attachment⟩ :=
      inStep.mirrors.attached found ((attached_iff id storage found).mpr ⟨operationId, origin⟩)
    rw [origin] at same
    obtain rfl := Option.some.inj (Option.some.inj same)
    refine ⟨row, commit, attachment, ?_⟩
    rw [stableStorageProjectionChecksum, attachment.stable, stableStorageProjectionChecksum]
  · obtain ⟨projection, requests, confirms, -⟩ := inStep.mirrors.projection invariant inStep.roomy inStep.version
    have version := inStep.backed.anchors.version.symm.trans inStep.version
    exact ⟨projection, requests, read_then (ensure_pos ⟨inStep.version, version⟩) (read_then requests
      (read_then confirms (read_then rfl (read_then (ensure_pos rfl) rfl))))⟩

/-- The laws of origins for a storage that was attached and then changed by a checkpoint. -/
theorem originLaws_attached : ∃ cache index, OriginLaws cache index ∧
    cache.state.storages.get? firstStorage.storageId = some checkpointedStorage := by
  obtain ⟨cache, index, run, held⟩ := exists_attachedRun
  exact ⟨cache, index, originLaws run, held⟩

/-! ### Advances -/

/-- What the authority takes from a provider that it is in step with. -/
structure AdvanceLaws (cache : GenerationCache) (index : OperationIndex) : Prop where
  /-- An append is taken, unless it prepares an operation id that has a row already. -/
  appends : ∀ event next, appendDeltaEvent cache event = some next → ∃ transition,
    appendTransition cache event = some transition ∧
    ((∃ indexed, index.compareAndAdvance cache.head next.head transition = some (some indexed)) ↔
      transition.Fresh index)
  /-- A rotation is taken. -/
  rotations : ∀ next, cache.head.frameCount.val ≠ 0 → rotateGeneration cache = some next →
    ∃ indexed, index.compareAndAdvance cache.head next.head .rotate = some (some indexed)
  /-- The rows tell the current state of every storage. -/
  storages : ∀ id, index.readLatestCommittedStorageState id = some (cache.state.storages.get? id)
  /-- The prepared rows are the prepared operations. -/
  prepared : ∀ id operation, Pending cache.state id operation ↔ operation.commit = none ∧
    index.operations.get? id = some { record := operation, committedChecksum := none }

/-- The authority refuses no append of a provider that it is in step with but that of an operation id it has seen,
and no rotation, and its rows tell the state. -/
theorem advanceLaws (run : IndexedRun cache index) : AdvanceLaws cache index := by
  have inStep := run.inStep
  refine ⟨fun event next => inStep.accepts, fun next => inStep.acceptsRotation, fun id => ?_,
    fun id operation => inStep.mirrors.pending⟩
  exact OperationIndex.readLatestCommittedStorageState_eq inStep.mirrors.keyed
    (fun row inside => inStep.mirrors.mem_values inside) (inStep.latest id)

/-- The laws of advances for the same storage. -/
theorem advanceLaws_attached : ∃ cache index, AdvanceLaws cache index ∧
    cache.state.storages.get? firstStorage.storageId = some checkpointedStorage := by
  obtain ⟨cache, index, run, held⟩ := exists_attachedRun
  exact ⟨cache, index, advanceLaws run, held⟩

end PortableCodex.Authority
