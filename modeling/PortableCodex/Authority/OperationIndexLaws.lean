import Mathlib.Data.List.ReduceOption
import PortableCodex.Authority.OperationIndex
import PortableCodex.ProviderState.Capacity

/-!
When an index accepts a projection.

`Mirrors` says that the rows are those of a generation state: its prepared operations have a row each, and an
attached storage has the row of the operation that attached it (`Attached`). A mirrored state has a projection,
and `compareProjection` answers with the receipt that the provider expects (`Mirrors.projection`).
-/

namespace PortableCodex.Authority

open Js ProviderState

/-! ### Lists by id -/

section Sorting

variable {α β : Type}

theorem ascending_eq {id : α → OpaqueId} {first second : List α}
    (ascending : first.Pairwise fun a b => (id a).val < (id b).val)
    (others : second.Pairwise fun a b => (id a).val < (id b).val) (same : ∀ a, a ∈ first ↔ a ∈ second) :
    first = second := by
  have nodup {items : List α} (sorted : items.Pairwise fun a b => (id a).val < (id b).val) : items.Nodup := by
    refine sorted.imp fun {a b} less same => ?_
    rw [same] at less
    exact lt_irrefl _ less
  refine ((List.perm_ext_iff_of_nodup (nodup ascending) (nodup others)).mpr same).eq_of_pairwise ?_
    ascending others
  exact fun _ _ _ _ less greater => absurd less (lt_asymm greater)

/-- Sorting commutes with a map that keeps the ids. -/
theorem map_sortById (f : α → β) (id : β → OpaqueId) {items : List α} {others : List β}
    (nodup : (items.map fun a => id (f a)).Nodup) (same : ∀ b, b ∈ others ↔ b ∈ items.map f)
    (distinct : (others.map id).Nodup) :
    (sortById (fun a => id (f a)) items).map f = sortById id others := by
  refine ascending_eq (List.pairwise_map.mpr (sortById_sorted _ items nodup)) (sortById_sorted id others distinct) ?_
  intro b
  rw [(sortById_perm id others).mem_iff, same, ((sortById_perm _ items).map f).mem_iff]

end Sorting

namespace OperationIndex

variable {index : OperationIndex}

/-! ### Rows -/

/-- Rows lie under their operation ids. -/
def Keyed (index : OperationIndex) : Prop :=
  ∀ id row, index.operations.get? id = some row → row.record.operationId = id

theorem Keyed.operationIds (keyed : index.Keyed) :
    index.operations.values.map (·.record.operationId) = index.operations.keys := by
  rw [JsMap.values, JsMap.keys, List.map_map]
  exact List.map_congr_left fun entry inside => keyed _ _ (JsMap.mem_entries.mp inside)

theorem Keyed.nodup (keyed : index.Keyed) : (index.operations.values.map (·.record.operationId)).Nodup := by
  rw [keyed.operationIds]
  exact index.operations.nodup

theorem Keyed.mem_values (keyed : index.Keyed) {row : OperationRow} :
    row ∈ index.operations.values ↔ index.operations.get? row.record.operationId = some row := by
  rw [JsMap.mem_values]
  constructor
  · rintro ⟨id, found⟩
    rw [keyed _ _ found]
    exact found
  · intro found
    exact ⟨_, found⟩

/-! ### Batches of origins -/

theorem mem_readAttachmentOrigins {operationIds : List OpaqueId} {limit : Nat} {row : OperationRow}
    (inside : row ∈ index.readAttachmentOrigins operationIds limit) :
    row ∈ index.operations.values ∧ row.record.operationId ∈ operationIds := by
  have member := (sortById_perm _ _).mem_iff.mp (List.mem_of_mem_take inside)
  rw [List.mem_filter, decide_eq_true_eq] at member
  exact member

/-- The query finds the row of each operation. -/
theorem readAttachmentOrigins_length (keyed : index.Keyed) {operationIds : List OpaqueId}
    (distinct : operationIds.Nodup) (found : ∀ id ∈ operationIds, ∃ row, index.operations.get? id = some row) :
    (index.readAttachmentOrigins operationIds (operationIds.length + 1)).length = operationIds.length := by
  have perm : ((index.operations.values.filter fun row => row.record.operationId ∈ operationIds).map
      (·.record.operationId)).Perm operationIds := by
    refine (List.perm_ext_iff_of_nodup (keyed.nodup.sublist (List.filter_sublist.map _)) distinct).mpr ?_
    intro id
    rw [List.mem_map]
    constructor
    · rintro ⟨row, inside, rfl⟩
      rw [List.mem_filter, decide_eq_true_eq] at inside
      exact inside.2
    · intro inside
      obtain ⟨row, held⟩ := found id inside
      refine ⟨row, ?_, keyed _ _ held⟩
      rw [List.mem_filter, decide_eq_true_eq, keyed _ _ held]
      exact ⟨JsMap.mem_values.mpr ⟨id, held⟩, inside⟩
  have length := perm.length_eq
  rw [List.length_map] at length
  rw [readAttachmentOrigins, List.length_take, (sortById_perm _ _).length_eq, length]
  exact min_eq_right (Nat.le_succ _)

theorem readAttachmentOrigins_ascends (keyed : index.Keyed) (operationIds : List OpaqueId) (limit : Nat) :
    ((index.readAttachmentOrigins operationIds limit).map (·.record.operationId)).IsChain
      fun previous next => previous.val < next.val := by
  have sorted := sortById_sorted (fun row : OperationRow => row.record.operationId)
    (index.operations.values.filter fun row => row.record.operationId ∈ operationIds)
    (keyed.nodup.sublist (List.filter_sublist.map _))
  have ascends : ((index.readAttachmentOrigins operationIds limit).map (·.record.operationId)).Pairwise
      fun previous next => previous.val < next.val :=
    List.pairwise_map.mpr (sorted.sublist (List.take_sublist _ _))
  exact ascends.isChain

theorem get?_batchByOperationId {batch : List AttachmentOrigin} (distinct : (batch.map (·.operationId)).Nodup)
    {origin : AttachmentOrigin} (inside : origin ∈ batch) :
    (batchByOperationId batch).get? origin.operationId = some origin := by
  have entries := JsMap.foldl_set_entries (fun origin : AttachmentOrigin => origin.operationId) batch distinct
    fun _ _ => JsMap.get?_empty
  refine JsMap.mem_entries.mp ?_
  rw [batchByOperationId, entries]
  exact List.mem_append_right _ (List.mem_map_of_mem inside)

/-- The row that an origin names. -/
def HasOrigin (index : OperationIndex) (origin : AttachmentOrigin) : Prop :=
  ∃ row, index.operations.get? origin.operationId = some row ∧ MatchesOrigin origin row

theorem compareBatch_found (keyed : index.Keyed)
    (visible : ∀ row ∈ index.operations.values, VisibleAtHead index.head row) {batch : List AttachmentOrigin}
    (distinct : (batch.map (·.operationId)).Nodup) (origins : ∀ origin ∈ batch, index.HasOrigin origin) :
    index.compareBatch batch = some (batch.length, true) := by
  have held : ∀ id ∈ batch.map (·.operationId), ∃ row, index.operations.get? id = some row := by
    intro id inside
    obtain ⟨origin, member, rfl⟩ := List.mem_map.mp inside
    obtain ⟨row, found, -⟩ := origins origin member
    exact ⟨row, found⟩
  have length := readAttachmentOrigins_length keyed distinct held
  rw [List.length_map] at length
  have matched : ∀ row ∈ index.readAttachmentOrigins (batch.map (·.operationId)) (batch.length + 1),
      ∃ origin ∈ (batchByOperationId batch).get? row.record.operationId, MatchesOrigin origin row := by
    intro row inside
    obtain ⟨member, named⟩ := mem_readAttachmentOrigins inside
    obtain ⟨origin, within, same⟩ := List.mem_map.mp named
    obtain ⟨other, found, agrees⟩ := origins origin within
    rw [same, keyed.mem_values.mp member] at found
    obtain rfl := Option.some.inj found
    refine ⟨origin, ?_, agrees⟩
    rw [← same]
    exact get?_batchByOperationId distinct within
  refine read_then (ensure_pos ?_) (read_then (ensure_pos ?_) ?_)
  · exact fun row inside => visible row (mem_readAttachmentOrigins inside).1
  · rw [length]
    exact Nat.le_succ _
  · dsimp only
    rw [length]
    exact congrArg (fun all => some (batch.length, all))
      (decide_eq_true ⟨distinct, readAttachmentOrigins_ascends keyed _ _, matched, rfl⟩)

theorem compareBatches_found (keyed : index.Keyed)
    (visible : ∀ row ∈ index.operations.values, VisibleAtHead index.head row) (origins : List AttachmentOrigin)
    (distinct : (origins.map (·.operationId)).Nodup) (rows : ∀ origin ∈ origins, index.HasOrigin origin) :
    index.compareBatches origins = some (origins.length, true) := by
  induction length : origins.length using Nat.strong_induction_on generalizing origins with
  | _ n ih =>
    subst length
    have batch := compareBatch_found keyed visible
      (distinct.sublist ((List.take_sublist maxRuntimeAttachmentOriginBatchSize origins).map _))
      fun origin inside => rows origin (List.mem_of_mem_take inside)
    rw [compareBatches, batch]
    simp only [Option.bind_eq_bind, Option.bind_some]
    split
    · rename_i more
      have left : 0 < (origins.drop maxRuntimeAttachmentOriginBatchSize).length := List.length_pos_iff.mpr more
      have shorter : (origins.drop maxRuntimeAttachmentOriginBatchSize).length < origins.length := by
        rw [List.length_drop] at left ⊢
        unfold maxRuntimeAttachmentOriginBatchSize at left ⊢
        omega
      have later := ih _ shorter (origins.drop maxRuntimeAttachmentOriginBatchSize)
        (distinct.sublist ((List.drop_sublist _ origins).map _))
        (fun origin inside => rows origin (List.mem_of_mem_drop inside)) rfl
      rw [later, Option.bind_some, List.length_take, List.length_drop]
      refine congrArg some (Prod.ext ?_ rfl)
      show min maxRuntimeAttachmentOriginBatchSize origins.length + _ = origins.length
      omega
    · rename_i done
      have whole : origins.drop maxRuntimeAttachmentOriginBatchSize = [] := not_not.mp done
      rw [List.take_of_length_le (List.drop_eq_nil_iff.mp whole)]

theorem compareAttachmentOrigins_found (keyed : index.Keyed)
    (visible : ∀ row ∈ index.operations.values, VisibleAtHead index.head row) {origins : List AttachmentOrigin}
    (distinct : (origins.map (·.operationId)).Nodup) (rows : ∀ origin ∈ origins, index.HasOrigin origin) :
    index.compareAttachmentOrigins origins = some true := by
  refine read_then (compareBatches_found keyed visible origins distinct rows) ?_
  simp

/-! ### Mirrored states -/

/-- The row of the operation that a storage is attached by. -/
structure Attached (index : OperationIndex) (storageId : OpaqueId) (storage : StorageState) (operationId : OpaqueId)
    (row : OperationRow) (commit : Commit) : Prop where
  found : index.operations.get? operationId = some row
  committed : row.record.commit = some commit
  attaches : row.record.kind.Attaches
  storage_eq : row.record.storageId = storageId
  /-- The storage has changed in its revision at most. -/
  stable : commit.storageState.stable = storage.stable
  revision : commit.storageState.revision.val ≤ storage.revision.val
  /-- No later attachment of the storage is committed. -/
  latest : ∀ {id other later}, index.operations.get? id = some other → other.record.commit = some later →
    other.record.kind.Attaches → other.record.storageId = storageId →
      later.committedStateRevision.val ≤ commit.committedStateRevision.val

/-- The rows are those of a state under a head. -/
structure Mirrors (index : OperationIndex) (head : LedgerHead) (state : GenerationState) : Prop where
  head_eq : index.head = head
  revision_eq : index.operationIndexStateRevision = head.stateRevision
  keyed : index.Keyed
  visible : ∀ {id row}, index.operations.get? id = some row → VisibleAtHead head row
  pending : ∀ {id operation}, Pending state id operation ↔
    operation.commit = none ∧ index.operations.get? id = some { record := operation, committedChecksum := none }
  unstamped : ∀ {id row}, index.operations.get? id = some row → row.record.commit = none →
    row.committedChecksum = none
  attached : ∀ {id storage}, state.storages.get? id = some storage → storage.lifecycle = .attached →
    ∃ operationId row commit, state.attachmentOrigins.get? id = some (some operationId) ∧
      index.Attached id storage operationId row commit

/-- The head has counted a frame for every prepared operation and for every storage. -/
structure Roomy (head : LedgerHead) (state : GenerationState) : Prop where
  prepared : (preparedOperations state).length ≤ head.checkpointFrameCount.val + head.frameCount.val
  storages : state.storages.size ≤ head.checkpointFrameCount.val + head.frameCount.val

variable {head : LedgerHead} {state : GenerationState}

theorem mem_preparedOperations (keyed : ProviderState.Keyed state) {operation : Operation} :
    operation ∈ preparedOperations state ↔ Pending state operation.operationId operation := by
  rw [preparedOperations, List.mem_filter, decide_eq_true_eq, JsMap.mem_values]
  constructor
  · rintro ⟨⟨id, found⟩, pending⟩
    rw [← keyed.operations found] at found
    exact ⟨found, pending⟩
  · rintro ⟨found, pending⟩
    exact ⟨⟨_, found⟩, pending⟩

theorem preparedStorages_nodup (invariant : Invariant state) :
    ((preparedOperations state).map (·.storageId)).Nodup := by
  have keys : (state.operations.values.map (·.operationId)).Nodup := by
    have same : state.operations.values.map (·.operationId) = state.operations.keys := by
      rw [JsMap.values, JsMap.keys, List.map_map]
      exact List.map_congr_left fun entry inside => invariant.keyed.operations (JsMap.mem_entries.mp inside)
    rw [same]
    exact state.operations.nodup
  have distinct := List.pairwise_map.mp (keys.sublist (List.filter_sublist.map _) :
    ((preparedOperations state).map (·.operationId)).Nodup)
  refine List.pairwise_map.mpr (distinct.imp_of_mem ?_)
  intro a b inside within ne same
  exact ne (invariant.unique ((mem_preparedOperations invariant.keyed).mp inside)
    ((mem_preparedOperations invariant.keyed).mp within) same)

theorem sortedPreparedCheckpointRecords_eq (invariant : Invariant state) :
    sortedPreparedCheckpointRecords state = some (sortById (·.storageId) (preparedOperations state)) :=
  read_then (ensure_pos (preparedStorages_nodup invariant)) rfl

section Mirrored

variable (mirrors : index.Mirrors head state)
include mirrors

theorem Mirrors.mem_values {row : OperationRow} (inside : row ∈ index.operations.values) :
    VisibleAtHead index.head row := by
  obtain ⟨id, found⟩ := JsMap.mem_values.mp inside
  rw [mirrors.head_eq]
  exact mirrors.visible found

/-- The prepared rows are those of the prepared operations. -/
theorem Mirrors.prepared (invariant : Invariant state) (operation : Operation) :
    operation ∈ preparedOperations state ↔
      operation ∈ (index.operations.values.filter fun row => row.record.commit = none).map (·.record) := by
  rw [mem_preparedOperations invariant.keyed, mirrors.pending, List.mem_map]
  constructor
  · rintro ⟨pending, found⟩
    refine ⟨{ record := operation, committedChecksum := none }, ?_, rfl⟩
    rw [List.mem_filter, decide_eq_true_eq]
    exact ⟨JsMap.mem_values.mpr ⟨_, found⟩, pending⟩
  · rintro ⟨row, inside, rfl⟩
    rw [List.mem_filter, decide_eq_true_eq] at inside
    obtain ⟨member, pending⟩ := inside
    have found := mirrors.keyed.mem_values.mp member
    refine ⟨pending, found.trans (congrArg some ?_)⟩
    rw [← mirrors.unstamped found pending]

/-- Two prepared rows on one storage are one row. -/
theorem Mirrors.preparedRows_nodup (invariant : Invariant state) :
    ((index.operations.values.filter fun row => row.record.commit = none).map
      fun row => row.record.storageId).Nodup := by
  have same := mirrors.prepared invariant
  have keys := List.pairwise_map.mp (mirrors.keyed.nodup.sublist (List.filter_sublist.map _) :
    ((index.operations.values.filter fun row => row.record.commit = none).map (·.record.operationId)).Nodup)
  refine List.pairwise_map.mpr (keys.imp_of_mem ?_)
  intro a b inside within ne storage
  have pending {row : OperationRow} (member : row ∈ index.operations.values.filter fun row =>
      row.record.commit = none) : Pending state row.record.operationId row.record :=
    (mem_preparedOperations invariant.keyed).mp ((same _).mpr (List.mem_map_of_mem member))
  exact ne (invariant.unique (pending inside) (pending within) storage)

theorem Mirrors.readAllPreparedOperations (invariant : Invariant state) (roomy : Roomy head state) (limit : Nat)
    (bound : head.checkpointFrameCount.val + head.frameCount.val < limit) :
    (index.readAllPreparedOperations limit).map (·.record) =
      sortById (·.storageId) (preparedOperations state) ∧
    ∀ row ∈ index.readAllPreparedOperations limit, row ∈ index.operations.values := by
  have same := mirrors.prepared invariant
  have distinct := mirrors.preparedRows_nodup invariant
  have sorted := map_sortById (fun row : OperationRow => row.record)
    (fun operation : Operation => operation.storageId) distinct same (preparedStorages_nodup invariant)
  have length := congrArg List.length sorted
  rw [List.length_map, (sortById_perm _ (preparedOperations state)).length_eq] at length
  have room := roomy.prepared
  rw [OperationIndex.readAllPreparedOperations, List.take_of_length_le (by omega)]
  refine ⟨sorted, fun row inside => ?_⟩
  exact (List.mem_filter.mp ((sortById_perm _ _).mem_iff.mp inside)).1

theorem Mirrors.comparePreparedProjection (invariant : Invariant state) (roomy : Roomy head state) :
    index.comparePreparedProjection (preparedOperations state).length
        (preparedProjectionChecksum (sortById (·.storageId) (preparedOperations state)))
        (head.checkpointFrameCount.val + head.frameCount.val) =
      some (some (preparedProjectionChecksum (sortById (·.storageId) (preparedOperations state)),
        (preparedOperations state).length)) := by
  obtain ⟨records, members⟩ := mirrors.readAllPreparedOperations invariant roomy
    (head.checkpointFrameCount.val + head.frameCount.val + 1) (Nat.lt_succ_self _)
  have length := congrArg List.length records
  rw [List.length_map, (sortById_perm _ (preparedOperations state)).length_eq] at length
  have ascends : ((index.readAllPreparedOperations (head.checkpointFrameCount.val + head.frameCount.val + 1)).map
      (·.record.storageId)).Pairwise fun previous next => previous.val < next.val := by
    have sorted := sortById_sorted (fun operation : Operation => operation.storageId) _
      (preparedStorages_nodup invariant)
    rw [← records] at sorted
    have rows : (index.readAllPreparedOperations
        (head.checkpointFrameCount.val + head.frameCount.val + 1)).Pairwise fun a b =>
          a.record.storageId.val < b.record.storageId.val := by
      rw [List.pairwise_map] at sorted
      exact sorted
    exact List.pairwise_map.mpr rows
  have jsons : (index.readAllPreparedOperations (head.checkpointFrameCount.val + head.frameCount.val + 1)).map
      (·.record.json) = (sortById (·.storageId) (preparedOperations state)).map (·.json) := by
    rw [← records, List.map_map]
    rfl
  refine read_then (ensure_pos fun row inside => mirrors.mem_values (members row inside))
    (read_then (ensure_pos (length ▸ roomy.prepared)) (read_then (ensure_pos ascends.isChain) ?_))
  dsimp only
  rw [jsons, length, preparedProjectionChecksum, (sortById_perm _ (preparedOperations state)).length_eq, if_neg]
  rintro (other | other) <;> exact other rfl

end Mirrored

/-! ### The projection of a mirrored state -/

section Origins

variable {α β γ : Type} {f : α → Option (Option β)} {items : List α} {results : List (Option β)}

theorem mapM_reduceOption_sublist {g : β → γ} {k : α → γ} (h : items.mapM f = some results)
    (same : ∀ a b, f a = some (some b) → g b = k a) : (results.reduceOption.map g).Sublist (items.map k) := by
  induction items generalizing results with
  | nil =>
      cases h
      exact List.Sublist.refl _
  | cons a items ih =>
      obtain ⟨b, rest, first, others, rfl⟩ := mapM_cons_eq_some h
      cases b with
      | none =>
          rw [List.reduceOption_cons_of_none]
          exact (ih others).cons _
      | some b =>
          rw [List.reduceOption_cons_of_some, List.map_cons, List.map_cons, same a b first]
          exact (ih others).cons_cons _

end Origins

/-- An origin is that of an attached storage. -/
structure Projects (index : OperationIndex) (state : GenerationState) (origin : AttachmentOrigin) : Prop where
  attached : ∃ storage row commit, state.storages.get? origin.storageId = some storage ∧
    index.Attached origin.storageId storage origin.operationId row commit ∧
    origin.currentStorageRevision = storage.revision ∧
    origin.stableStorageChecksum = stableStorageProjectionChecksum storage

theorem Projects.hasOrigin {origin : AttachmentOrigin} (keyed : index.Keyed) (h : index.Projects state origin) :
    index.HasOrigin origin := by
  obtain ⟨storage, row, commit, -, attached, revision, checksum⟩ := h.attached
  refine ⟨row, attached.found, attached.attaches, keyed _ _ attached.found, attached.storage_eq, commit,
    attached.committed, ?_, ?_⟩
  · rw [revision]
    exact attached.revision
  · rw [checksum, stableStorageProjectionChecksum, attached.stable, stableStorageProjectionChecksum]

/-- An operation has attached one storage. -/
theorem Projects.storage_eq {a b : AttachmentOrigin} (left : index.Projects state a)
    (right : index.Projects state b) (same : a.operationId = b.operationId) : a.storageId = b.storageId := by
  obtain ⟨_, row, _, -, attached, -⟩ := left.attached
  obtain ⟨_, other, _, -, others, -⟩ := right.attached
  have found := attached.found
  rw [same, others.found] at found
  obtain rfl := Option.some.inj found
  rw [← attached.storage_eq, others.storage_eq]

theorem Mirrors.attachmentOriginOf (mirrors : index.Mirrors head state) (invariant : Invariant state)
    {id : OpaqueId} {storage : StorageState} (found : state.storages.get? id = some storage) :
    ∃ origin, attachmentOriginOf state id storage = some origin ∧
      ∀ o, origin = some o → o.storageId = id ∧ index.Projects state o := by
  have matched := invariant.origins id
  rw [found] at matched
  by_cases attached : storage.lifecycle = .attached
  · obtain ⟨operationId, row, commit, origin, attachment⟩ := mirrors.attached found attached
    refine ⟨some { currentStorageRevision := storage.revision, operationId,
                   stableStorageChecksum := stableStorageProjectionChecksum storage, storageId := id }, ?_, ?_⟩
    · rw [ProviderState.attachmentOriginOf, if_neg (not_not.mpr attached), origin]
      rfl
    · rintro _ ⟨⟩
      exact ⟨rfl, ⟨storage, row, commit, found, attachment, rfl, rfl⟩⟩
  · have absent : (state.attachmentOrigins.get? id).getD none = none := by
      cases held : state.attachmentOrigins.get? id with
      | none => rfl
      | some origin =>
          rw [held] at matched
          exact not_not.mp fun other => attached (matched.mpr other)
    refine ⟨none, ?_, by rintro _ ⟨⟩⟩
    rw [ProviderState.attachmentOriginOf, if_pos attached]
    exact read_then (ensure_pos absent) rfl

/-- A mirrored state has a projection, and the index confirms it. -/
theorem Mirrors.projection (mirrors : index.Mirrors head state) (invariant : Invariant state)
    (roomy : Roomy head state) (version : head.contractVersion = .v3) :
    ∃ projection, authorityProjectionRequest head state = some projection ∧
      index.compareProjection projection.request = some (some projection.expectedReceipt) ∧
      ∀ origin ∈ projection.request.attachmentOrigins, index.Projects state origin := by
  have each : ∀ entry ∈ state.storages.entries, ∃ origin,
      ProviderState.attachmentOriginOf state entry.1 entry.2 = some origin ∧
        ∀ o, origin = some o → o.storageId = entry.1 ∧ index.Projects state o :=
    fun entry inside => mirrors.attachmentOriginOf invariant (JsMap.mem_entries.mp inside)
  obtain ⟨origins, mapped⟩ := mapM_eq_some_of_forall fun entry inside => (each entry inside).imp fun _ found => found.1
  have projects : ∀ origin ∈ origins.reduceOption, index.Projects state origin := by
    intro origin inside
    obtain ⟨entry, member, form⟩ := (mapM_mem mapped _).mp (List.reduceOption_mem_iff.mp inside)
    obtain ⟨other, same, facts⟩ := each entry member
    exact (facts origin (Option.some.inj (same.symm.trans form))).2
  have sublist : (origins.reduceOption.map (·.storageId)).Sublist state.storages.keys := by
    refine mapM_reduceOption_sublist mapped fun entry origin form => ?_
    unfold ProviderState.attachmentOriginOf at form
    split at form
    · simp only [Option.bind_eq_bind, Option.bind_eq_some_iff, Option.some.injEq, reduceCtorEq, and_false,
        exists_false] at form
    · simp only [Option.bind_eq_bind, Option.bind_eq_some_iff, Option.some.injEq] at form
      obtain ⟨_, -, rfl⟩ := form
      rfl
  have distinct := state.storages.nodup.sublist sublist
  have sorted := sortById_sorted (fun origin : AttachmentOrigin => origin.storageId) _ distinct
  have inside (origin : AttachmentOrigin) :
      origin ∈ sortById (·.storageId) origins.reduceOption ↔ origin ∈ origins.reduceOption :=
    (sortById_perm _ _).mem_iff
  have count : (sortById (·.storageId) origins.reduceOption).length ≤
      head.checkpointFrameCount.val + head.frameCount.val := by
    rw [(sortById_perm _ _).length_eq]
    have shorter := sublist.length_le
    rw [List.length_map, JsMap.keys, List.length_map] at shorter
    exact shorter.trans roomy.storages
  have ascends : ((sortById (·.storageId) origins.reduceOption).map (·.storageId)).Pairwise
      fun previous next => previous.val < next.val := List.pairwise_map.mpr sorted
  have operationIds : ((sortById (·.storageId) origins.reduceOption).map (·.operationId)).Nodup := by
    refine List.pairwise_map.mpr (sorted.imp_of_mem ?_)
    intro a b left right less same
    have storage := Projects.storage_eq (projects a ((inside a).mp left)) (projects b ((inside b).mp right)) same
    rw [storage] at less
    exact lt_irrefl _ less
  have compared := compareAttachmentOrigins_found mirrors.keyed (fun row member => mirrors.mem_values member)
    operationIds fun origin member => (projects origin ((inside origin).mp member)).hasOrigin mirrors.keyed
  have prepared := mirrors.comparePreparedProjection invariant roomy
  refine ⟨_, read_then (sortedPreparedCheckpointRecords_eq invariant) (read_then mapped rfl), ?_, ?_⟩
  · dsimp only
    rw [compareProjection, if_neg (not_not.mpr mirrors.head_eq), mirrors.head_eq,
      (sortById_perm _ (preparedOperations state)).length_eq]
    refine read_then (read_then (ensure_pos count) (read_then (ensure_pos ascends.isChain) rfl)) ?_
    refine read_then (ensure_pos version) (read_then (ensure_pos mirrors.revision_eq) ?_)
    refine read_then (ensure_pos roomy.prepared) (read_then prepared (read_then compared ?_))
    rfl
  · exact fun origin member => projects origin ((inside origin).mp member)

end OperationIndex

end PortableCodex.Authority
