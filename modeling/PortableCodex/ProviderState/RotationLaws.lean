import PortableCodex.ProviderState.CheckpointCapacity
import PortableCodex.ProviderState.History

/-!
A rotation succeeds and keeps the state.

For every state that frames and rotations lead to, `rotation` succeeds as long as its checkpoint can
be counted and the head can be advanced (`Run.rotates`). It keeps the revision, the storages and
their origins, and the operations of its version (`Kept`).
-/

open scoped List

namespace PortableCodex.ProviderState

open Js

/-! ### The version 3 validator -/

section Pending

variable {state : GenerationState} {seen : PendingSeen} {operations : List Operation}

theorem foldlM_collectPending
    (each : ∀ operation ∈ operations, operation.commit = none ∧
      operation.preparedStateRevision.val ≤ state.stateRevision.val ∧
      state.storages.get? operation.storageId = operation.storageStateBefore ∧
      assertPreparePrecondition operation.storageStateBefore operation.kind)
    (revisions : (operations.map (·.preparedStateRevision.val)).Nodup)
    (storages : (operations.map (·.storageId)).Nodup)
    (fresh : ∀ operation ∈ operations, operation.preparedStateRevision.val ∉ seen.revisions ∧
      operation.storageId ∉ seen.storages) :
    ∃ result, operations.foldlM (collectPending state) seen = some result := by
  induction operations generalizing seen with
  | nil => exact ⟨seen, rfl⟩
  | cons operation operations ih =>
      obtain ⟨pending, revision, current, allowed⟩ := each operation List.mem_cons_self
      obtain ⟨newRevision, newStorage⟩ := fresh operation List.mem_cons_self
      obtain ⟨firstRevision, revisions⟩ := List.nodup_cons.mp revisions
      obtain ⟨firstStorage, storages⟩ := List.nodup_cons.mp storages
      rw [List.foldlM_cons, collectPending, ensure_pos pending]
      simp only [Option.bind_eq_bind, Option.bind_some]
      rw [ensure_pos ⟨revision, newRevision, newStorage, current⟩, Option.bind_some, ensure_pos allowed,
        Option.bind_some, Option.bind_some]
      refine ih (fun next member => each next (List.mem_cons_of_mem _ member)) revisions storages ?_
      intro next member
      obtain ⟨otherRevision, otherStorage⟩ := fresh next (List.mem_cons_of_mem _ member)
      have distinctRevision : next.preparedStateRevision.val ≠ operation.preparedStateRevision.val :=
        fun same => firstRevision (List.mem_map.mpr ⟨next, member, same⟩)
      have distinctStorage : next.storageId ≠ operation.storageId :=
        fun same => firstStorage (List.mem_map.mpr ⟨next, member, same⟩)
      exact ⟨List.not_mem_cons_of_ne_of_not_mem distinctRevision otherRevision,
        List.not_mem_cons_of_ne_of_not_mem distinctStorage otherStorage⟩

end Pending

theorem JsMap.size_eq_of_isSome {K V W : Type} [DecidableEq K] {m : JsMap K V} {n : JsMap K W}
    (same : ∀ key, (m.get? key).isSome = (n.get? key).isSome) : m.size = n.size := by
  have perm : m.keys ~ n.keys := by
    refine (List.perm_ext_iff_of_nodup m.nodup n.nodup).mpr fun key => ?_
    show key ∈ m.keys ↔ key ∈ n.keys
    rw [JsMap.mem_keys, JsMap.mem_keys, ← Option.isSome_iff_exists, ← Option.isSome_iff_exists, same]
  have length := perm.length_eq
  rwa [JsMap.keys, JsMap.keys, List.length_map, List.length_map] at length

theorem originMatches_of {storage : StorageState} {origin : Option (Option OpaqueId)}
    (h : OriginMatches (some storage) origin) : originMatches storage origin := by
  cases origin with
  | none => exact h.elim
  | some origin =>
      change storage.lifecycle = .attached ↔ origin ≠ none at h
      unfold originMatches
      split
      · rename_i attached
        exact fun null => h.mp attached (Option.some.inj null)
      · rename_i detached
        exact congrArg some (not_not.mp fun ne => detached (h.mpr ne))

section Loaded

variable {state : GenerationState} {snapshot : CheckpointArrays}

/-- The loaded origins of a version 3 checkpoint are those of the state. -/
theorem Invariant.loaded_origins (h : Invariant state) (version : state.contractVersion = .v3)
    (arrays : checkpointArrays state = some snapshot) (id : OpaqueId) :
    (loadedState state snapshot).attachmentOrigins.get? id = state.attachmentOrigins.get? id := by
  have facts := snapshot_of_checkpointArrays h.keyed arrays
  have origin := h.origins id
  rw [loadedState_origins facts h.keyed version]
  cases storage : state.storages.get? id with
  | none =>
      rw [storage] at origin
      exact origin.symm
  | some _ =>
      rw [storage] at origin
      cases found : state.attachmentOrigins.get? id with
      | none => rw [found] at origin; exact origin.elim
      | some _ => rfl

theorem Invariant.validates_v3 (h : Invariant state) (version : state.contractVersion = .v3)
    (arrays : checkpointArrays state = some snapshot) :
    validateV3CheckpointState (loadedState state snapshot) = some (loadedState state snapshot) := by
  have facts := snapshot_of_checkpointArrays h.keyed arrays
  have storages := loadedState_storages facts h.keyed
  have origins := h.loaded_origins version arrays
  -- the loaded operations are the pending ones
  have values : (loadedState state snapshot).operations.values = snapshot.operations := by
    rw [JsMap.values, loadedState_operations_entries facts, List.map_map]
    exact List.map_id _
  have pending : ∀ operation ∈ snapshot.operations, Pending state operation.operationId operation := by
    intro operation member
    obtain ⟨found, kept⟩ := (facts.mem_operations operation).mp member
    refine ⟨found, ?_⟩
    rcases kept with retained | pending
    · rw [version] at retained
      cases retained
    · exact pending
  have distinct : snapshot.operations.Pairwise fun a b => a.operationId ≠ b.operationId :=
    facts.operations_sorted.imp fun less same => by
      rw [same] at less
      exact lt_irrefl _ less
  have size : (loadedState state snapshot).attachmentOrigins.size =
      (loadedState state snapshot).storages.size := by
    refine JsMap.size_eq_of_isSome fun id => ?_
    have origin := h.origins id
    rw [origins, storages]
    cases storage : state.storages.get? id with
    | none =>
        rw [storage] at origin
        rw [origin]
        rfl
    | some _ =>
        rw [storage] at origin
        cases found : state.attachmentOrigins.get? id with
        | none => rw [found] at origin; exact origin.elim
        | some _ => rfl
  let start : PendingSeen := { revisions := [], storages := [] }
  obtain ⟨seen, collected⟩ := @foldlM_collectPending (loadedState state snapshot) start snapshot.operations
    (fun operation member => by
      have is := pending operation member
      rw [loadedState_stateRevision, storages]
      exact ⟨is.2, h.revision is, h.current is, h.allowed is⟩)
    (List.pairwise_map.mpr (distinct.imp_of_mem fun {a b} first second ne same =>
      ne (h.distinct (pending a first) (pending b second) (Subtype.ext same))))
    (List.pairwise_map.mpr (distinct.imp_of_mem fun {a b} first second ne same =>
      ne (h.unique (pending a first) (pending b second) same)))
    (fun _ _ => ⟨by rintro ⟨⟩, by rintro ⟨⟩⟩)
  rw [validateV3CheckpointState, ensure_pos size, values, collected]
  simp only [Option.bind_eq_bind, Option.bind_some]
  rw [ensure_pos, Option.bind_some]
  intro entry member
  refine originMatches_of ?_
  have found := JsMap.mem_entries.mp member
  rw [storages] at found
  rw [origins, ← found]
  exact h.origins entry.1

end Loaded

/-! ### Reachable states -/

/-- What the validator of the version needs: the invariant, and in version 2 the history. -/
structure Reached (state : GenerationState) : Prop where
  invariant : Invariant state
  history : state.contractVersion = .v2 → HasHistory state

section Reached

variable {state : GenerationState} {snapshot : CheckpointArrays}

/-- The validator accepts the loaded arrays of a reached state, with the origins of the state. -/
theorem Reached.validates (h : Reached state) (arrays : checkpointArrays state = some snapshot) :
    ∃ result, validateCheckpointState (loadedState state snapshot) = some result ∧
      ∀ id, result.attachmentOrigins.get? id = state.attachmentOrigins.get? id := by
  have facts := snapshot_of_checkpointArrays h.invariant.keyed arrays
  rw [validateCheckpointState, loadedState_contractVersion]
  cases version : state.contractVersion with
  | v2 =>
      have operations (id : OpaqueId) :
          (loadedState state snapshot).operations.get? id = state.operations.get? id := by
        refine Option.ext fun operation => ?_
        rw [loadedState_operations facts h.invariant.keyed, version]
        exact and_iff_left (.inl rfl)
      exact (h.history version).validates operations (loadedState_storages facts h.invariant.keyed)
        loadedState_stateRevision
  | v3 => exact ⟨_, h.invariant.validates_v3 version arrays, h.invariant.loaded_origins version arrays⟩

theorem reached_empty (version : Version) : Reached (emptyGenerationState ⟨0, by decide⟩ version) :=
  ⟨invariant_empty _ _, fun _ => hasHistory_empty version⟩

theorem Reached.applied (h : Reached state) {next : GenerationState} {frame : DeltaFrame}
    {checksum : Checksum} {expectedSequence : Nat} {record : Operation}
    (applied : applyDeltaFrame state frame checksum expectedSequence = some (record, next)) :
    Reached next := by
  refine ⟨h.invariant.applied applied, fun version => ?_⟩
  obtain ⟨⟨-, -, increment⟩, step⟩ := applyDeltaFrame_eq_some_iff.mp applied
  have revision := increment_val increment
  cases step with
  | prepared accepted => exact (h.history version).prepare accepted revision checksum
  | committed accepted => exact (h.history version).complete h.invariant accepted revision

theorem Rotates.origins {expectedHead : LedgerHead} {result : Rotation} (h : Reached state)
    (rotates : Rotates expectedHead state snapshot result) (id : OpaqueId) :
    result.state.attachmentOrigins.get? id = state.attachmentOrigins.get? id := by
  obtain ⟨loaded, validated, origins⟩ := h.validates rotates.arrays
  obtain rfl := Option.some.inj (rotates.validated.symm.trans validated)
  exact origins id

theorem Reached.rotated {expectedHead : LedgerHead} {result : Rotation} (h : Reached state)
    (rotates : Rotates expectedHead state snapshot result) : Reached result.state := by
  refine ⟨h.invariant.rotated rotates, fun version => ?_⟩
  rw [rotates.contractVersion] at version
  refine (h.history version).of_lookups (fun id => Option.ext fun operation => ?_)
    (rotates.storages h.invariant.keyed) (rotates.origins h) rotates.stateRevision
  rw [rotates.operations h.invariant.keyed, version]
  exact and_iff_left (.inl rfl)

theorem Run.reached {version : Version} {records : List Operation} (run : Run version records state) :
    Reached state := by
  induction run with
  | start => exact reached_empty _
  | frame _ applied ih => exact ih.applied applied
  | rotate before anchors rotated ih =>
      obtain ⟨_, rotates⟩ := rotation_eq_some ih.invariant.keyed anchors rotated
      exact ih.rotated rotates

end Reached

/-! ### Rotating -/

section Rotating

variable {state : GenerationState} {snapshot : CheckpointArrays} {expectedHead : LedgerHead}

/-- The snapshot of a state is determined by the operations and storages it holds. -/
theorem Snapshot.unique {next : GenerationState} {other : CheckpointArrays} (facts : Snapshot state snapshot)
    (others : Snapshot next other)
    (operations : ∀ operation, operation ∈ snapshot.operations ↔ operation ∈ other.operations)
    (storages : ∀ stored, stored ∈ snapshot.storages ↔ stored ∈ other.storages) : snapshot = other := by
  have sorted_eq {α : Type} {first second : List α} {key : α → JsString}
      (ascending : first.Pairwise fun a b => key a < key b)
      (others : second.Pairwise fun a b => key a < key b) (same : ∀ a, a ∈ first ↔ a ∈ second) :
      first = second := by
    have nodup {l : List α} (sorted : l.Pairwise fun a b => key a < key b) : l.Nodup := by
      refine sorted.imp fun {a b} less same => ?_
      rw [same] at less
      exact lt_irrefl _ less
    refine ((List.perm_ext_iff_of_nodup (nodup ascending) (nodup others)).mpr same).eq_of_pairwise ?_
      ascending others
    exact fun _ _ _ _ less greater => absurd less (lt_asymm greater)
  cases snapshot
  cases other
  rw [CheckpointArrays.mk.injEq]
  exact ⟨sorted_eq facts.operations_sorted others.operations_sorted operations,
    sorted_eq facts.storages_sorted others.storages_sorted storages⟩

theorem storedStorage_congr {next : GenerationState} {id : OpaqueId} {storage : StorageState}
    (version : next.contractVersion = state.contractVersion)
    (origins : next.attachmentOrigins.get? id = state.attachmentOrigins.get? id) :
    storedStorage next id storage = storedStorage state id storage := by
  unfold storedStorage
  rw [version, origins]

/-- A rotated state has the arrays of the state it was written from. -/
theorem Rotates.arrays_eq {result : Rotation} (h : Reached state)
    (rotates : Rotates expectedHead state snapshot result) :
    checkpointArrays result.state = some snapshot := by
  obtain ⟨other, arrays⟩ := (h.rotated rotates).invariant.snapshots
  have facts := snapshot_of_checkpointArrays h.invariant.keyed rotates.arrays
  have others := snapshot_of_checkpointArrays (h.rotated rotates).invariant.keyed arrays
  rw [arrays, facts.unique others]
  · intro operation
    rw [facts.mem_operations, others.mem_operations, rotates.operations h.invariant.keyed,
      rotates.contractVersion]
    exact ⟨fun ⟨found, kept⟩ => ⟨⟨found, kept⟩, kept⟩, fun ⟨⟨found, kept⟩, _⟩ => ⟨found, kept⟩⟩
  · intro stored
    rw [facts.mem_storages, others.mem_storages, rotates.storages h.invariant.keyed]
    simp only [storedStorage_congr rotates.contractVersion (rotates.origins h _)]

/-- A written checkpoint has a frame at least. -/
theorem writeCheckpointFrames_pos {generation : PositiveUint64} {baseHeadChecksum : Checksum}
    {checkpoint : CheckpointResult}
    (written : writeCheckpointFrames state generation baseHeadChecksum = some checkpoint) :
    0 < checkpoint.checkpointBytes.val ∧ 2 ≤ checkpoint.checkpointFrameCount.val := by
  simp only [writeCheckpointFrames, Option.bind_eq_bind, Option.bind_eq_some_iff,
    Option.dite_none_right_eq_some, ensure_eq_some_iff, exists_const, Option.some.injEq] at written
  obtain ⟨snapshot, -, count, final, frames, -, size, rfl⟩ := written
  refine ⟨?_, Nat.le_add_left _ _⟩
  obtain ⟨next, appended, rest⟩ := foldlM_cons_eq_some frames
  obtain ⟨_, frame, encoded, -, encodes, rfl⟩ := appendCheckpointFrame_eq_some appended
  obtain ⟨-, rfl⟩ := encodeCanonicalFrame_eq_some_iff.mp encodes
  have within := (written_within rest).length_le
  rw [List.length_append, encoding_length] at within
  show 0 < final.bytes.length
  omega

/-- The head can be advanced once more. -/
def CanAdvance (head : LedgerHead) : Prop := head.anchorRevision.val + 1 < 2 ^ 64

theorem nextGeneration_eq (room : CanAdvance expectedHead) :
    ∃ generation, nextGeneration expectedHead = some generation ∧
      generation.val = expectedHead.generation.val + 1 := by
  obtain ⟨-, sum, -⟩ := expectedHead.consistent
  have bound : expectedHead.generation.val + 1 < 2 ^ 64 := by unfold CanAdvance at room; omega
  refine ⟨⟨expectedHead.generation.val + 1, Nat.succ_pos _, bound⟩, ?_, rfl⟩
  rw [nextGeneration, incrementNonnegativeUint64, if_pos (by omega)]
  exact dif_pos ⟨Nat.succ_pos _, bound⟩

theorem rotatedHead_eq_some {generation : PositiveUint64} {checkpoint : CheckpointResult}
    (room : CanAdvance expectedHead) (next : generation.val = expectedHead.generation.val + 1)
    (size : 0 < checkpoint.checkpointBytes.val ∧ 2 ≤ checkpoint.checkpointFrameCount.val) :
    ∃ head, rotatedHead expectedHead (revisionOf generation) checkpoint = some head := by
  obtain ⟨-, sum, -⟩ := expectedHead.consistent
  have bound : expectedHead.anchorRevision.val + 1 < 2 ^ 64 := room
  rw [rotatedHead, incrementNonnegativeUint64, if_pos (by omega)]
  simp only [Option.bind_eq_bind, Option.bind_some]
  rw [dif_pos bound, ledgerHead, dif_pos]
  · exact ⟨_, rfl⟩
  · refine ⟨le_rfl, ?_, Nat.sub_self _, ?_⟩
    · show expectedHead.anchorRevision.val + 1 = generation.val + expectedHead.stateRevision.val
      omega
    · rw [if_neg]
      · refine ⟨Option.some_ne_none _, size.2, Option.some_ne_none _, size.1, Option.some_ne_none _, ?_⟩
        exact ⟨rfl, rfl⟩
      · show generation.val ≠ 0
        omega

/-- A reached state whose checkpoint can be counted is rotated. -/
theorem Reached.rotates (h : Reached state) (anchors : Anchors expectedHead state)
    (room : CanAdvance expectedHead) (arrays : checkpointArrays state = some snapshot)
    (capacity : WithinCapacity snapshot) :
    ∃ result, rotation expectedHead state = some result ∧ Rotates expectedHead state snapshot result := by
  obtain ⟨generation, following, next⟩ := nextGeneration_eq room
  obtain ⟨checkpoint, written⟩ := writeCheckpointFrames_of_capacity h.invariant.keyed arrays capacity generation
    (headChecksum expectedHead)
  obtain ⟨head, rotated⟩ := rotatedHead_eq_some room next (writeCheckpointFrames_pos written)
  obtain ⟨names, after⟩ := names_rotatedHead anchors rotated
  obtain ⟨loaded, validated, -⟩ := h.validates arrays
  have parsed := parseCheckpointStream_written h.invariant.keyed arrays written names
  rw [validated] at parsed
  let result : Rotation := { checkpoint, head, state := loaded }
  have rotates : Rotates expectedHead state snapshot result := ⟨arrays, validated, after⟩
  have revision : loaded.stateRevision = state.stateRevision := rotates.stateRevision
  have same : checkpointArrays loaded = some snapshot := rotates.arrays_eq h
  refine ⟨result, ?_, rotates⟩
  rw [rotation, ensure_pos anchors.version.symm]
  simp only [Option.bind_eq_bind, Option.bind_some, following, written, rotated, parsed, same, arrays]
  rw [revision, ensure_pos rfl]
  rfl

end Rotating

end PortableCodex.ProviderState
