import PortableCodex.ProviderState.CheckpointLaws
import PortableCodex.ProviderState.Life

/-!
The invariant of replay.

`Invariant` is what every generation state satisfies that frames and rotations lead to. Each accepted
frame preserves it (`Invariant.applied`), and so does loading a checkpoint (`Invariant.rotated`).
`Run` collects the frames and rotations from the empty state; the commits of a run to one storage are
a life (`Run.life`).
-/

namespace PortableCodex.ProviderState

open Js

/-- An operation that is prepared and not yet committed. -/
def Pending (state : GenerationState) (id : OpaqueId) (operation : Operation) : Prop :=
  state.operations.get? id = some operation ∧ operation.commit = none

/-- A storage has an origin, which is set exactly when the storage is attached. -/
def OriginMatches : Option StorageState → Option (Option OpaqueId) → Prop
  | none, origin => origin = none
  | some _, none => False
  | some storage, some origin => storage.lifecycle = .attached ↔ origin ≠ none

structure Invariant (state : GenerationState) : Prop where
  keyed : Keyed state
  /-- A storage has at most one pending operation. -/
  unique : ∀ {i j a b}, Pending state i a → Pending state j b → a.storageId = b.storageId → i = j
  /-- A pending operation was prepared on the current storage. -/
  current : ∀ {id operation}, Pending state id operation →
    state.storages.get? operation.storageId = operation.storageStateBefore
  allowed : ∀ {id operation}, Pending state id operation →
    assertPreparePrecondition operation.storageStateBefore operation.kind
  revision : ∀ {id operation}, Pending state id operation →
    operation.preparedStateRevision.val ≤ state.stateRevision.val
  distinct : ∀ {i j a b}, Pending state i a → Pending state j b →
    a.preparedStateRevision = b.preparedStateRevision → i = j
  origins : ∀ id, OriginMatches (state.storages.get? id) (state.attachmentOrigins.get? id)

theorem invariant_empty (stateRevision : Uint64) (version : Version) :
    Invariant (emptyGenerationState stateRevision version) where
  keyed := ⟨by rintro _ _ ⟨⟩, by rintro _ _ ⟨⟩⟩
  unique := by rintro _ _ _ _ ⟨⟨⟩, -⟩
  current := by rintro _ _ ⟨⟨⟩, -⟩
  allowed := by rintro _ _ ⟨⟨⟩, -⟩
  revision := by rintro _ _ ⟨⟨⟩, -⟩
  distinct := by rintro _ _ _ _ ⟨⟨⟩, -⟩
  origins := fun _ => rfl

/-! ### Frames -/

section Frames

variable {state : GenerationState}

theorem increment_val {n : Nat} {revision : PositiveUint64}
    (h : incrementNonnegativeUint64 n = some revision.val) : (revisionOf revision).val = n + 1 := by
  simp only [incrementNonnegativeUint64, Option.ite_none_right_eq_some, Option.some.injEq] at h
  exact h.2.symm

theorem pending_prepare {frame : PreparedFrame} {checksum : Checksum} {id : OpaqueId}
    {operation : Operation} (h : Pending (state.prepare frame checksum) id operation) :
    id = frame.operationId ∧ operation = makePreparedRecord frame checksum ∨
      id ≠ frame.operationId ∧ Pending state id operation := by
  obtain ⟨found, pending⟩ := h
  change (state.operations.set _ _).get? id = _ at found
  rw [JsMap.get?_set] at found
  split at found
  · rename_i same
    exact .inl ⟨same, (Option.some.inj found).symm⟩
  · rename_i other
    exact .inr ⟨other, found, pending⟩

theorem pending_complete {frame : CommittedFrame} {committed : Operation} {origin : Option OpaqueId}
    {id : OpaqueId} {operation : Operation}
    (h : Pending (state.complete frame committed origin) id operation) :
    id ≠ frame.operationId ∧ Pending state id operation := by
  obtain ⟨found, pending⟩ := h
  change (state.operations.set _ _).get? id = _ at found
  rw [JsMap.get?_set] at found
  split at found
  · obtain rfl := Option.some.inj found
    cases pending
  · rename_i other
    exact ⟨other, found, pending⟩

theorem Invariant.prepare (h : Invariant state) {frame : PreparedFrame} (accepted : Prepares state frame)
    (revision : (revisionOf frame.stateRevision).val = state.stateRevision.val + 1)
    (checksum : Checksum) : Invariant (state.prepare frame checksum) where
  keyed := {
    operations := by
      intro id operation found
      change (state.operations.set _ _).get? id = _ at found
      rw [JsMap.get?_set] at found
      split at found
      · rename_i same
        obtain rfl := Option.some.inj found
        exact same.symm
      · exact h.keyed.operations found
    storages := h.keyed.storages }
  unique := by
    intro i j a b left right same
    rcases pending_prepare left with ⟨rfl, rfl⟩ | ⟨-, left⟩ <;>
      rcases pending_prepare right with ⟨rfl, rfl⟩ | ⟨-, right⟩
    · rfl
    · exact absurd same.symm (accepted.idle _ _ right.1 right.2)
    · exact absurd same (accepted.idle _ _ left.1 left.2)
    · exact h.unique left right same
  current := by
    intro id operation pending
    rcases pending_prepare pending with ⟨-, rfl⟩ | ⟨-, pending⟩
    · exact accepted.current
    · exact h.current pending
  allowed := by
    intro id operation pending
    rcases pending_prepare pending with ⟨-, rfl⟩ | ⟨-, pending⟩
    · exact accepted.allowed
    · exact h.allowed pending
  revision := by
    intro id operation pending
    rcases pending_prepare pending with ⟨-, rfl⟩ | ⟨-, pending⟩
    · exact le_rfl
    · exact (h.revision pending).trans (by rw [GenerationState.prepare, revision]; omega)
  distinct := by
    have later {id operation} (pending : Pending state id operation) :
        operation.preparedStateRevision ≠ frame.stateRevision := by
      intro same
      have bound := h.revision pending
      rw [same] at bound
      change frame.stateRevision.val = _ at revision
      omega
    intro i j a b left right same
    rcases pending_prepare left with ⟨rfl, rfl⟩ | ⟨-, left⟩ <;>
      rcases pending_prepare right with ⟨rfl, rfl⟩ | ⟨-, right⟩
    · rfl
    · exact absurd same.symm (later right)
    · exact absurd same (later left)
    · exact h.distinct left right same
  origins := h.origins

/-- The origin that a commit leaves matches the state it leaves. -/
theorem committedAttachmentOrigin_matches {operation : Operation} {next : StorageState}
    {origin : Option OpaqueId}
    (before : OriginMatches operation.storageStateBefore
      (state.attachmentOrigins.get? operation.storageId))
    (transition : assertStorageTransition operation.storageStateBefore next operation.kind)
    (h : committedAttachmentOrigin state operation next = some origin) :
    OriginMatches (some next) (some origin) := by
  have detached (h : (do ensure (next.lifecycle ≠ .attached); some none) = some origin) :
      OriginMatches (some next) (some origin) := by
    simp only [Option.bind_eq_bind, Option.bind_eq_some_iff, ensure_eq_some_iff, exists_const,
      Option.some.injEq] at h
    obtain ⟨notAttached, rfl⟩ := h
    exact iff_of_false notAttached (fun no => no rfl)
  have attached (lifecycle : next.lifecycle = .attached) (h : some (some operation.operationId) = some origin) :
      OriginMatches (some next) (some origin) := by
    obtain rfl := Option.some.inj h
    exact iff_of_true lifecycle (Option.some_ne_none _)
  have kept (lifecycle : ∃ previous, operation.storageStateBefore = some previous ∧
      next.lifecycle = previous.lifecycle)
      (h : some ((state.attachmentOrigins.get? operation.storageId).getD none) = some origin) :
      OriginMatches (some next) (some origin) := by
    obtain ⟨previous, found, same⟩ := lifecycle
    rw [found] at before
    cases old : state.attachmentOrigins.get? operation.storageId with
    | none => rw [old] at before; exact before.elim
    | some old_origin =>
        rw [old] at before h
        obtain rfl := Option.some.inj h
        show next.lifecycle = .attached ↔ _
        rw [same]
        exact before
  unfold committedAttachmentOrigin at h
  cases previous : operation.storageStateBefore with
  | none =>
      rw [previous] at transition
      obtain ⟨kind, -⟩ := transition
      rw [kind] at h
      exact detached h
  | some old =>
      rw [previous] at transition
      cases kind : operation.kind with
      | provision => rw [kind] at transition; exact transition.elim
      | attach => rw [kind] at transition h; exact attached transition.2.2.1 h
      | restoreAttach => rw [kind] at transition h; exact attached transition.2.2.1 h
      | detach => rw [kind] at h; exact detached h
      | destroy => rw [kind] at h; exact detached h
      | checkpoint => rw [kind] at transition h; exact kept ⟨old, previous, transition.2.1⟩ h
      | restore => rw [kind] at transition h; exact kept ⟨old, previous, transition.2.1⟩ h

theorem Invariant.complete (h : Invariant state) {frame : CommittedFrame} {committed : Operation}
    {origin : Option OpaqueId} (accepted : Commits state frame committed origin)
    (revision : (revisionOf frame.stateRevision).val = state.stateRevision.val + 1) :
    Invariant (state.complete frame committed origin) := by
  have self : Pending state frame.operationId committed := ⟨accepted.found, accepted.pending⟩
  -- no other operation is pending on the storage that changes
  have other {id operation} (ne : id ≠ frame.operationId) (pending : Pending state id operation) :
      operation.storageId ≠ committed.storageId := fun same => ne (h.unique pending self same)
  refine {
    keyed := ⟨?_, ?_⟩
    unique := fun left right => h.unique (pending_complete left).2 (pending_complete right).2
    current := ?_
    allowed := fun pending => h.allowed (pending_complete pending).2
    revision := fun pending => (h.revision (pending_complete pending).2).trans ?_
    distinct := fun left right => h.distinct (pending_complete left).2 (pending_complete right).2
    origins := ?_ }
  · intro id operation found
    change (state.operations.set _ _).get? id = _ at found
    rw [JsMap.get?_set] at found
    split at found
    · rename_i same
      obtain rfl := Option.some.inj found
      exact (h.keyed.operations accepted.found).trans same.symm
    · exact h.keyed.operations found
  · intro id storage found
    change (state.storages.set _ _).get? id = _ at found
    rw [JsMap.get?_set] at found
    split at found
    · rename_i same
      obtain rfl := Option.some.inj found
      exact accepted.sameStorage.trans same.symm
    · exact h.keyed.storages found
  · intro id operation pending
    obtain ⟨ne, pending⟩ := pending_complete pending
    show (state.storages.set _ _).get? operation.storageId = _
    rw [JsMap.get?_set_of_ne (other ne pending)]
    exact h.current pending
  · rw [GenerationState.complete, revision]
    omega
  · intro id
    show OriginMatches ((state.storages.set _ _).get? id) ((state.attachmentOrigins.set _ _).get? id)
    rw [JsMap.get?_set, JsMap.get?_set]
    split
    · refine committedAttachmentOrigin_matches ?_ accepted.transition accepted.origin_eq
      rw [← accepted.current]
      exact h.origins _
    · exact h.origins id

theorem Invariant.applied {next : GenerationState} {frame : DeltaFrame} {checksum : Checksum}
    {expectedSequence : Nat} {record : Operation} (h : Invariant state)
    (applied : applyDeltaFrame state frame checksum expectedSequence = some (record, next)) :
    Invariant next := by
  obtain ⟨⟨-, -, increment⟩, step⟩ := applyDeltaFrame_eq_some_iff.mp applied
  have revision := increment_val increment
  cases step with
  | prepared accepted => exact h.prepare accepted revision checksum
  | committed accepted => exact h.complete accepted revision

end Frames

/-! ### Loading a checkpoint -/

section Validated

variable {state next : GenerationState}

/-- The replay of a history keeps the origins of the replayed storages. -/
theorem replayEvent_origins {event : CheckpointEvent}
    (before : ∀ id, OriginMatches (state.storages.get? id) (state.attachmentOrigins.get? id))
    (h : replayEvent state event = some next) (id : OpaqueId) :
    OriginMatches (next.storages.get? id) (next.attachmentOrigins.get? id) := by
  unfold replayEvent at h
  split at h
  · simp only [replayCommitted, Option.bind_eq_bind, Option.bind_eq_some_iff, ensure_eq_some_iff,
      exists_const, Option.some.injEq] at h
    obtain ⟨_, -, commit, -, ⟨-, -, -, -, -, -, -, current, -, -⟩, transition, origin, origin_eq, rfl⟩ := h
    dsimp only
    rw [JsMap.get?_set, JsMap.get?_set]
    split
    · refine committedAttachmentOrigin_matches ?_ transition origin_eq
      rw [← current]
      exact before _
    · exact before id
  · simp only [replayPrepared, Option.bind_eq_bind, Option.bind_eq_some_iff, ensure_eq_some_iff,
      exists_const, Option.some.injEq] at h
    obtain ⟨-, -, rfl⟩ := h
    exact before id

theorem replayEvents_origins {index : Nat} {events : List CheckpointEvent}
    (before : ∀ id, OriginMatches (state.storages.get? id) (state.attachmentOrigins.get? id))
    (h : replayEvents index state events = some next) (id : OpaqueId) :
    OriginMatches (next.storages.get? id) (next.attachmentOrigins.get? id) := by
  induction events generalizing index state with
  | nil =>
      cases h
      exact before id
  | cons event events ih =>
      simp only [replayEvents, Option.bind_eq_bind, Option.bind_eq_some_iff, ensure_eq_some_iff,
        exists_const] at h
      obtain ⟨-, replayed, one, rest⟩ := h
      exact ih (replayEvent_origins before one) rest

/-- A validated state differs from the loaded one in its origins at most, which then match. -/
theorem validateCheckpointState_eq_some (h : validateCheckpointState state = some next) :
    next.contractVersion = state.contractVersion ∧ next.stateRevision = state.stateRevision ∧
      next.operations = state.operations ∧ next.storages = state.storages ∧
      (state.contractVersion = .v2 →
        ∀ id, OriginMatches (next.storages.get? id) (next.attachmentOrigins.get? id)) ∧
      (state.contractVersion = .v3 → next = state) := by
  unfold validateCheckpointState at h
  split at h
  · rename_i version
    simp only [validateV2CheckpointState, Option.bind_eq_bind, Option.bind_eq_some_iff,
      ensure_eq_some_iff, exists_const, Option.some.injEq] at h
    obtain ⟨events, -, -, replayed, replay, ⟨-, size⟩, -, storages, rfl⟩ := h
    refine ⟨rfl, rfl, rfl, rfl, fun _ id => ?_, fun other => by rw [version] at other; cases other⟩
    have same := JsMap.get?_eq_of_entries storages size
    have empty (id : OpaqueId) : OriginMatches ((emptyGenerationState ⟨0, by decide⟩ .v2).storages.get? id)
        ((emptyGenerationState ⟨0, by decide⟩ .v2).attachmentOrigins.get? id) := rfl
    have origins := replayEvents_origins empty replay id
    rwa [same] at origins
  · rename_i version
    simp only [validateV3CheckpointState, Option.bind_eq_bind, Option.bind_eq_some_iff,
      ensure_eq_some_iff, exists_const, Option.some.injEq] at h
    obtain ⟨-, _, -, -, rfl⟩ := h
    refine ⟨rfl, rfl, rfl, rfl, fun other => ?_, fun _ => rfl⟩
    rw [version] at other
    cases other

end Validated

/-! ### Rotations -/

/-- The head of a state: it has its version and its revision. -/
structure Anchors (head : LedgerHead) (state : GenerationState) : Prop where
  version : head.contractVersion = state.contractVersion
  stateRevision : head.stateRevision = state.stateRevision

section Rotations

variable {state : GenerationState} {expectedHead : LedgerHead}

theorem ledgerHead_eq_some {record : HeadRecord} {head : LedgerHead} (h : ledgerHead record = some head) :
    head.toHeadRecord = record := by
  simp only [ledgerHead, Option.dite_none_right_eq_some, Option.some.injEq] at h
  obtain ⟨_, rfl⟩ := h
  rfl

/-- The rotated head names the checkpoint that was written. -/
theorem names_rotatedHead {generation : PositiveUint64} {checkpoint : CheckpointResult} {head : LedgerHead}
    (anchors : Anchors expectedHead state)
    (h : rotatedHead expectedHead (revisionOf generation) checkpoint = some head) :
    Names head state generation (headChecksum expectedHead) checkpoint ∧ Anchors head state := by
  simp only [rotatedHead, Option.bind_eq_bind, Option.bind_eq_some_iff,
    Option.dite_none_right_eq_some] at h
  obtain ⟨_, -, _, h⟩ := h
  obtain ⟨record, consistent⟩ := head
  obtain rfl := ledgerHead_eq_some h
  exact ⟨⟨anchors.version, rfl, rfl, anchors.stateRevision, rfl, rfl, rfl⟩, anchors.version,
    anchors.stateRevision⟩

/-- What a rotation does: it writes the state and goes on with the validated arrays. -/
structure Rotates (expectedHead : LedgerHead) (state : GenerationState) (snapshot : CheckpointArrays)
    (result : Rotation) : Prop where
  arrays : checkpointArrays state = some snapshot
  validated : validateCheckpointState (loadedState state snapshot) = some result.state
  anchors : Anchors result.head state

theorem rotation_eq_some (keyed : Keyed state) (anchors : Anchors expectedHead state) {result : Rotation}
    (h : rotation expectedHead state = some result) :
    ∃ snapshot, Rotates expectedHead state snapshot result := by
  simp only [rotation, Option.bind_eq_bind, Option.bind_eq_some_iff, ensure_eq_some_iff, exists_const,
    Option.some.injEq] at h
  obtain ⟨-, generation, -, checkpoint, written, head, rotated, loaded, parsed, _, -, snapshot, arrays, -,
    rfl⟩ := h
  obtain ⟨names, after⟩ := names_rotatedHead anchors rotated
  rw [parseCheckpointStream_written keyed arrays written names] at parsed
  exact ⟨snapshot, arrays, parsed, after⟩

variable {snapshot : CheckpointArrays} {result : Rotation}

theorem Rotates.storages (rotates : Rotates expectedHead state snapshot result) (keyed : Keyed state)
    (id : OpaqueId) : result.state.storages.get? id = state.storages.get? id := by
  have facts := snapshot_of_checkpointArrays keyed rotates.arrays
  rw [(validateCheckpointState_eq_some rotates.validated).2.2.2.1, loadedState_storages facts keyed]

theorem Rotates.operations (rotates : Rotates expectedHead state snapshot result) (keyed : Keyed state)
    {id : OpaqueId} {operation : Operation} :
    result.state.operations.get? id = some operation ↔
      state.operations.get? id = some operation ∧ Kept state.contractVersion operation := by
  have facts := snapshot_of_checkpointArrays keyed rotates.arrays
  rw [(validateCheckpointState_eq_some rotates.validated).2.2.1, loadedState_operations facts keyed]

theorem Rotates.pending (rotates : Rotates expectedHead state snapshot result) (keyed : Keyed state)
    {id : OpaqueId} {operation : Operation} :
    Pending result.state id operation ↔ Pending state id operation := by
  rw [Pending, Pending, rotates.operations keyed]
  constructor
  · rintro ⟨⟨found, -⟩, pending⟩
    exact ⟨found, pending⟩
  · rintro ⟨found, pending⟩
    exact ⟨⟨found, .inr pending⟩, pending⟩

theorem Rotates.stateRevision (rotates : Rotates expectedHead state snapshot result) :
    result.state.stateRevision = state.stateRevision := by
  rw [(validateCheckpointState_eq_some rotates.validated).2.1, loadedState_stateRevision]

theorem Rotates.contractVersion (rotates : Rotates expectedHead state snapshot result) :
    result.state.contractVersion = state.contractVersion := by
  rw [(validateCheckpointState_eq_some rotates.validated).1, loadedState_contractVersion]

theorem Invariant.rotated (h : Invariant state) (rotates : Rotates expectedHead state snapshot result) :
    Invariant result.state where
  keyed := {
    operations := fun found => h.keyed.operations ((rotates.operations h.keyed).mp found).1
    storages := fun found => h.keyed.storages ((rotates.storages h.keyed _).symm.trans found) }
  unique := fun left right =>
    h.unique ((rotates.pending h.keyed).mp left) ((rotates.pending h.keyed).mp right)
  current := fun pending => by
    rw [rotates.storages h.keyed]
    exact h.current ((rotates.pending h.keyed).mp pending)
  allowed := fun pending => h.allowed ((rotates.pending h.keyed).mp pending)
  revision := fun pending => by
    rw [rotates.stateRevision]
    exact h.revision ((rotates.pending h.keyed).mp pending)
  distinct := fun left right =>
    h.distinct ((rotates.pending h.keyed).mp left) ((rotates.pending h.keyed).mp right)
  origins := fun id => by
    have facts := snapshot_of_checkpointArrays h.keyed rotates.arrays
    obtain ⟨-, -, -, -, v2, v3⟩ := validateCheckpointState_eq_some rotates.validated
    rw [loadedState_contractVersion] at v2 v3
    cases version : state.contractVersion with
    | v2 => exact v2 version id
    | v3 =>
        rw [v3 version, loadedState_storages facts h.keyed, loadedState_origins facts h.keyed version]
        have before := h.origins id
        cases storage : state.storages.get? id with
        | none => rfl
        | some storage =>
            rw [storage] at before
            cases origin : state.attachmentOrigins.get? id with
            | none => rw [origin] at before; exact before.elim
            | some origin => rw [origin] at before; exact before

end Rotations

/-! ### Runs -/

/-- A run: frames and rotations from the empty state, and the records the frames made, oldest first. -/
inductive Run (version : Version) : List Operation → GenerationState → Prop where
  | start : Run version [] (emptyGenerationState ⟨0, by decide⟩ version)
  | frame {records state frame checksum expectedSequence record next} : Run version records state →
      applyDeltaFrame state frame checksum expectedSequence = some (record, next) →
      Run version (records ++ [record]) next
  | rotate {records state expectedHead result} : Run version records state →
      Anchors expectedHead state → rotation expectedHead state = some result →
      Run version records result.state

/-- The commit of a record, if it is one of the given storage. -/
def commitOf (storageId : OpaqueId) (record : Operation) : Option StorageCommit := do
  let commit ← record.commit
  ensure (record.storageId = storageId)
  some { kind := record.kind, state := commit.storageState }

/-- The commits of a storage among the records of a run. -/
def lifeOf (storageId : OpaqueId) (records : List Operation) : List StorageCommit :=
  records.filterMap (commitOf storageId)

theorem Run.invariant {version : Version} {records : List Operation} {state : GenerationState}
    (run : Run version records state) : Invariant state := by
  induction run with
  | start => exact invariant_empty _ _
  | frame _ applied ih => exact ih.applied applied
  | rotate _ anchors rotated ih =>
      obtain ⟨_, rotates⟩ := rotation_eq_some ih.keyed anchors rotated
      exact ih.rotated rotates

theorem lifeOf_append (storageId : OpaqueId) (records : List Operation) (record : Operation) :
    lifeOf storageId (records ++ [record]) =
      lifeOf storageId records ++ (commitOf storageId record).toList := by
  rw [lifeOf, List.filterMap_append, lifeOf]
  cases form : commitOf storageId record <;> simp [form]

theorem commitOf_prepared (storageId : OpaqueId) (frame : PreparedFrame) (checksum : Checksum) :
    commitOf storageId (makePreparedRecord frame checksum) = none := rfl

theorem commitOf_committed (storageId : OpaqueId) (operation : Operation) (frame : CommittedFrame) :
    commitOf storageId (makeCommittedRecord operation frame) =
      if operation.storageId = storageId then some { kind := operation.kind, state := frame.storageState }
      else none := by
  show ((ensure (operation.storageId = storageId)).bind fun _ => some _) = _
  split
  · rename_i same
    rw [ensure_pos same, Option.bind_some]
    rfl
  · rename_i other
    rw [ensure_neg other, Option.bind_none]

/-- The commits to a storage are a life, and the storage is where the life has come to. -/
theorem Run.life {version : Version} {records : List Operation} {state : GenerationState}
    (run : Run version records state) (storageId : OpaqueId) :
    IsLife (lifeOf storageId records) ∧
      state.storages.get? storageId = currentOf (lifeOf storageId records) := by
  induction run with
  | start => exact ⟨.nil, rfl⟩
  | frame before applied ih =>
      obtain ⟨life, current⟩ := ih
      obtain ⟨-, step⟩ := applyDeltaFrame_eq_some_iff.mp applied
      rw [lifeOf_append]
      cases step with
      | prepared accepted =>
          rw [commitOf_prepared, Option.toList_none, List.append_nil]
          exact ⟨life, current⟩
      | committed accepted =>
          rename_i operation origin
          rw [commitOf_committed]
          by_cases same : operation.storageId = storageId
          · have transition := accepted.transition
            rw [← accepted.current, same, current] at transition
            rw [if_pos same, Option.toList_some]
            refine ⟨life.commit transition, ?_⟩
            rw [currentOf, List.getLast?_concat, ← same]
            exact JsMap.get?_set_self
          · rw [if_neg same, Option.toList_none, List.append_nil]
            refine ⟨life, ?_⟩
            rw [← current]
            exact JsMap.get?_set_of_ne (Ne.symm same)
  | rotate before anchors rotated ih =>
      obtain ⟨_, rotates⟩ := rotation_eq_some before.invariant.keyed anchors rotated
      rw [rotates.storages before.invariant.keyed]
      exact ih

/-- What holds in every state of a run, with the records that led to it. -/
structure ReplayLaws (records : List Operation) (state : GenerationState) : Prop where
  /-- A storage has at most one prepared operation. -/
  unique : ∀ {i j a b}, Pending state i a → Pending state j b → a.storageId = b.storageId → i = j
  /-- A prepared operation has the current storage as the one before it. -/
  current : ∀ {id operation}, Pending state id operation →
    state.storages.get? operation.storageId = operation.storageStateBefore
  /-- No operation is prepared on a destroyed storage. -/
  live : ∀ {id operation storage}, Pending state id operation →
    state.storages.get? operation.storageId = some storage → storage.lifecycle ≠ .destroyed
  /-- A storage record lies under its id and passes `canonicalStorageState`. -/
  canonical : ∀ {id storage}, state.storages.get? id = some storage →
    storage.storageId = id ∧ canonicalStorageState storage.json = some storage
  /-- A storage is what its commits have made of it. -/
  replayed : ∀ id, state.storages.get? id = currentOf (lifeOf id records)
  life : ∀ id, LifeLaws (lifeOf id records)

theorem not_prepared_destroyed {storage : StorageState} {kind : Kind}
    (h : assertPreparePrecondition (some storage) kind) : storage.lifecycle ≠ .destroyed := by
  intro destroyed
  cases kind <;> simp [assertPreparePrecondition, destroyed] at h

/-- Every state that frames and rotations lead to satisfies the laws of replay. -/
theorem Run.replayLaws {version : Version} {records : List Operation} {state : GenerationState}
    (run : Run version records state) : ReplayLaws records state where
  unique := run.invariant.unique
  current := run.invariant.current
  live pending found := by
    have allowed := run.invariant.allowed pending
    rw [← run.invariant.current pending, found] at allowed
    exact not_prepared_destroyed allowed
  canonical found := ⟨run.invariant.keyed.storages found, canonicalStorageState_reads .held _⟩
  replayed id := (run.life id).2
  life id := (run.life id).1.laws

/-! ### A first storage -/

def imageIdentity : PhysicalIdentity where
  filesystemId := ⟨js "fs", by decide⟩
  objectIdentityScheme := ⟨js "inode", by decide⟩
  objectId := ⟨js "1", by decide⟩

def rootIdentity : PhysicalIdentity := { imageIdentity with objectId := ⟨js "2", by decide⟩ }

def controlIdentity : PhysicalIdentity := { imageIdentity with objectId := ⟨js "3", by decide⟩ }

/-- A storage just provisioned. -/
def firstStorage : StorageState where
  storageId := ⟨js "storage", by decide⟩
  sessionId := ⟨js "session", by decide⟩
  backendId := ⟨js "backend", by decide⟩
  filesystemId := ⟨js "fs", by decide⟩
  imagePath := ⟨js "/image", by decide⟩
  lifecycle := .provisioned
  revision := ⟨1, by decide⟩
  writerEpoch := ⟨0, Nat.two_pow_pos 64⟩
  writerAuthority := none
  mount := some { mountPath := ⟨js "/mnt", by decide⟩, imageIdentity, rootIdentity }
  publicationControlIdentity := some controlIdentity
  dataRoot := none
  attachment := none
  consistent := by decide

/-- The frame that prepares the provision of a first storage. -/
def firstPrepared (contractVersion : Version) : PreparedFrame where
  contractVersion := contractVersion
  kind := .provision
  operationId := ⟨js "operation", by decide⟩
  previousChecksum := none
  request := ⟨.object [], rfl⟩
  sequence := ⟨1, by decide⟩
  stateRevision := ⟨1, by decide⟩
  storageId := firstStorage.storageId
  storageStateBefore := none

/-- The frame that commits it. -/
def firstCommitted (contractVersion : Version) (preparedChecksum : Checksum) : CommittedFrame where
  contractVersion := contractVersion
  expectedStorage := none
  operationId := (firstPrepared contractVersion).operationId
  preparedChecksum := some preparedChecksum
  previousChecksum := some preparedChecksum
  result := ⟨.object [], rfl⟩
  sequence := ⟨2, by decide⟩
  stateRevision := ⟨2, by decide⟩
  storageState := firstStorage

/-- The state with the prepared provision. -/
def firstPending (version : Version) (checksum : Checksum) : GenerationState :=
  (emptyGenerationState ⟨0, Nat.two_pow_pos 64⟩ version).prepare (firstPrepared version) checksum

/-- The state with the provisioned storage. -/
def firstProvisioned (version : Version) (checksum : Checksum) : GenerationState :=
  (firstPending version checksum).complete (firstCommitted version checksum)
    (makePreparedRecord (firstPrepared version) checksum) none

theorem firstPending_applied (version : Version) (checksum : Checksum) :
    applyDeltaFrame (emptyGenerationState ⟨0, Nat.two_pow_pos 64⟩ version) (.prepared (firstPrepared version))
        checksum 1 =
      some (makePreparedRecord (firstPrepared version) checksum, firstPending version checksum) := by
  refine applyDeltaFrame_eq_some_iff.mpr ⟨⟨rfl, rfl, rfl⟩, .prepared ⟨rfl, ?_, rfl, rfl⟩⟩
  rintro _ _ ⟨⟩

theorem firstProvisioned_applied (version : Version) (checksum own : Checksum) :
    applyDeltaFrame (firstPending version checksum) (.committed (firstCommitted version checksum)) own 2 =
      some (makeCommittedRecord (makePreparedRecord (firstPrepared version) checksum)
        (firstCommitted version checksum), firstProvisioned version checksum) := by
  have transition : assertStorageTransition none firstStorage .provision := by decide
  exact applyDeltaFrame_eq_some_iff.mpr ⟨⟨rfl, rfl, rfl⟩, .committed
    ⟨JsMap.get?_set_self, rfl, rfl, rfl, rfl, rfl, transition, rfl⟩⟩

/-! ### Its attachment -/

theorem positiveUint64_one : 0 < 1 ∧ 1 < 2 ^ 64 := by decide

theorem holder_isOpaqueId : IsOpaqueId (js "holder") := by decide

theorem lease_isOpaqueId : IsOpaqueId (js "lease") := by decide

theorem attachment_isOpaqueId : IsOpaqueId (js "attachment") := by decide

theorem proof_isOpaqueId : IsOpaqueId (js "proof") := by decide

theorem root_isAbsolutePath : IsAbsolutePath (js "/mnt/data") := by decide

theorem root_isObjectId : IsObjectId (js "4") := by decide

theorem uint64_one : 1 < 2 ^ 64 := positiveUint64_one.2

theorem positiveUint64_two : 0 < 2 ∧ 2 < 2 ^ 64 := by decide

/-- The first storage, attached. -/
def attachedStorage : StorageState where
  toStorageRecord := { firstStorage.toStorageRecord with
    lifecycle := .attached
    revision := ⟨2, positiveUint64_two⟩
    writerEpoch := ⟨1, uint64_one⟩
    writerAuthority := some { fencingEpoch := ⟨1, positiveUint64_one⟩, holderId := ⟨js "holder", holder_isOpaqueId⟩,
                              leaseId := ⟨js "lease", lease_isOpaqueId⟩ }
    dataRoot := some { rootPath := ⟨js "/mnt/data", root_isAbsolutePath⟩, imageIdentity
                       rootIdentity := { imageIdentity with objectId := ⟨js "4", root_isObjectId⟩ } }
    attachment := some {
      attachmentId := ⟨js "attachment", attachment_isOpaqueId⟩, leaseId := ⟨js "lease", lease_isOpaqueId⟩
      holderId := ⟨js "holder", holder_isOpaqueId⟩, fencingEpoch := ⟨1, uint64_one⟩
      rootPath := ⟨js "/mnt/data", root_isAbsolutePath⟩, proofId := ⟨js "proof", proof_isOpaqueId⟩, imageIdentity
      rootIdentity := { imageIdentity with objectId := ⟨js "4", root_isObjectId⟩ } } }
  consistent := by decide

theorem attach_isOpaqueId : IsOpaqueId (js "attach") := by decide

theorem three_isSequence : 1 ≤ 3 ∧ 3 ≤ maxFrameCount := by decide

theorem four_isSequence : 1 ≤ 4 ∧ 4 ≤ maxFrameCount := by decide

theorem three_isRevision : 0 < 3 ∧ 3 < 2 ^ 64 := by decide

theorem four_isRevision : 0 < 4 ∧ 4 < 2 ^ 64 := by decide

/-- The frame that prepares the attach of the storage. -/
def attachPrepared (contractVersion : Version) (previousChecksum : Checksum) : PreparedFrame where
  contractVersion := contractVersion
  kind := .attach
  operationId := ⟨js "attach", attach_isOpaqueId⟩
  previousChecksum := some previousChecksum
  request := (firstPrepared contractVersion).request
  sequence := ⟨3, three_isSequence⟩
  stateRevision := ⟨3, three_isRevision⟩
  storageId := firstStorage.storageId
  storageStateBefore := some firstStorage

/-- The frame that commits it. -/
def attachCommitted (contractVersion : Version) (preparedChecksum : Checksum) : CommittedFrame where
  contractVersion := contractVersion
  expectedStorage := expectedStorageState (some firstStorage)
  operationId := (attachPrepared contractVersion preparedChecksum).operationId
  preparedChecksum := some preparedChecksum
  previousChecksum := some preparedChecksum
  result := (firstCommitted contractVersion preparedChecksum).result
  sequence := ⟨4, four_isSequence⟩
  stateRevision := ⟨4, four_isRevision⟩
  storageState := attachedStorage

/-- The state with the prepared attach; `first` is the checksum of the first prepare. -/
def attachPending (version : Version) (first previous checksum : Checksum) : GenerationState :=
  (firstProvisioned version first).prepare (attachPrepared version previous) checksum

/-- The state with the attached storage. -/
def attachAttached (version : Version) (first previous checksum : Checksum) : GenerationState :=
  (attachPending version first previous checksum).complete (attachCommitted version checksum)
    (makePreparedRecord (attachPrepared version previous) checksum) (some (attachPrepared version previous).operationId)

theorem attach_ne_operation : (⟨js "attach", attach_isOpaqueId⟩ : OpaqueId) ≠ (firstPrepared .v3).operationId := by
  decide

/-- Every operation of the first storage is committed. -/
theorem firstProvisioned_committed {version : Version} {checksum : Checksum} {id : OpaqueId} {operation : Operation}
    (found : (firstProvisioned version checksum).operations.get? id = some operation) : operation.commit ≠ none := by
  change ((firstPending version checksum).operations.set (firstPrepared version).operationId _).get? id = _ at found
  rw [JsMap.get?_set] at found
  split at found
  · obtain rfl := Option.some.inj found
    exact Option.some_ne_none _
  · rename_i other
    change (JsMap.set _ (firstPrepared version).operationId _).get? id = _ at found
    rw [JsMap.get?_set_of_ne other] at found
    cases found

theorem attachPending_applied (version : Version) (first previous checksum : Checksum) :
    applyDeltaFrame (firstProvisioned version first) (.prepared (attachPrepared version previous)) checksum 3 =
      some (makePreparedRecord (attachPrepared version previous) checksum,
        attachPending version first previous checksum) := by
  have allowed : assertPreparePrecondition (some firstStorage) .attach := by decide
  refine applyDeltaFrame_eq_some_iff.mpr ⟨⟨rfl, rfl, rfl⟩, .prepared ⟨?_, ?_, JsMap.get?_set_self, allowed⟩⟩
  · exact (JsMap.get?_set_of_ne attach_ne_operation).trans (JsMap.get?_set_of_ne attach_ne_operation)
  · intro id operation found pending
    exact absurd pending (firstProvisioned_committed found)

theorem attachAttached_applied (version : Version) (first previous checksum own : Checksum) :
    applyDeltaFrame (attachPending version first previous checksum) (.committed (attachCommitted version checksum)) own 4 =
      some (makeCommittedRecord (makePreparedRecord (attachPrepared version previous) checksum)
        (attachCommitted version checksum), attachAttached version first previous checksum) := by
  have transition : assertStorageTransition (some firstStorage) attachedStorage .attach := by decide
  exact applyDeltaFrame_eq_some_iff.mpr ⟨⟨rfl, rfl, rfl⟩, .committed
    ⟨JsMap.get?_set_self, rfl, rfl, JsMap.get?_set_self, rfl, rfl, transition, rfl⟩⟩

/-- The records of the four frames. -/
def attachRecords (version : Version) (first previous checksum : Checksum) : List Operation :=
  [makePreparedRecord (firstPrepared version) first,
    makeCommittedRecord (makePreparedRecord (firstPrepared version) first) (firstCommitted version first),
    makePreparedRecord (attachPrepared version previous) checksum,
    makeCommittedRecord (makePreparedRecord (attachPrepared version previous) checksum)
      (attachCommitted version checksum)]

theorem attachPending_run (version : Version) (first previous checksum : Checksum) :
    Run version ((attachRecords version first previous checksum).take 3)
      (attachPending version first previous checksum) :=
  ((Run.start.frame (firstPending_applied version first)).frame
    (firstProvisioned_applied version first previous)).frame
      (attachPending_applied version first previous checksum)

theorem attachAttached_run (version : Version) (first previous checksum : Checksum) :
    Run version (attachRecords version first previous checksum) (attachAttached version first previous checksum) :=
  (attachPending_run version first previous checksum).frame
    (attachAttached_applied version first previous checksum checksum)

/-- The laws behind a provision and an attach. -/
theorem replayLaws_attach : ReplayLaws (attachRecords .v3 (hexChecksum [1]) (hexChecksum [2]) (hexChecksum [3]))
    (attachAttached .v3 (hexChecksum [1]) (hexChecksum [2]) (hexChecksum [3])) :=
  Run.replayLaws (attachAttached_run .v3 (hexChecksum [1]) (hexChecksum [2]) (hexChecksum [3]))

end PortableCodex.ProviderState
