import PortableCodex.ProviderState.Checkpoint
import PortableCodex.ProviderState.CodecLaws

/-!
A written checkpoint loads.

`parseCheckpointStream_written` says that the bytes of `writeCheckpointFrames`, read under a head that
names them, load the arrays that were written and go to the validator. The loops are followed frame by
frame: a reader `Tracks` the writer that stands at its place.
-/

namespace PortableCodex.ProviderState

open Js

/-! ### Arrays -/

section Traversal

variable {α β γ : Type} {f : α → Option β} {items : List α} {results : List β}

theorem mapM_cons_eq_some {a : α} (h : (a :: items).mapM f = some results) :
    ∃ b rest, f a = some b ∧ items.mapM f = some rest ∧ results = b :: rest := by
  rw [List.mapM_cons] at h
  obtain ⟨b, first, h⟩ := Option.bind_eq_some_iff.mp h
  obtain ⟨rest, others, h⟩ := Option.bind_eq_some_iff.mp h
  cases h
  exact ⟨b, rest, first, others, rfl⟩

theorem mapM_mem (h : items.mapM f = some results) (b : β) : b ∈ results ↔ ∃ a ∈ items, f a = some b := by
  induction items generalizing results with
  | nil =>
      cases h
      simp
  | cons a items ih =>
      obtain ⟨c, rest, first, others, rfl⟩ := mapM_cons_eq_some h
      rw [List.mem_cons, ih others, List.exists_mem_cons_iff, first, Option.some.injEq, eq_comm]

theorem mapM_some (h : items.mapM f = some results) : ∀ a ∈ items, ∃ b, f a = some b := by
  induction items generalizing results with
  | nil => rintro _ ⟨⟩
  | cons a items ih =>
      obtain ⟨b, rest, first, others, rfl⟩ := mapM_cons_eq_some h
      exact List.forall_mem_cons.mpr ⟨⟨b, first⟩, ih others⟩

theorem mapM_map (h : items.mapM f = some results) {g : β → γ} {k : α → γ}
    (same : ∀ a ∈ items, ∀ b, f a = some b → g b = k a) : results.map g = items.map k := by
  induction items generalizing results with
  | nil =>
      cases h
      rfl
  | cons a items ih =>
      obtain ⟨b, rest, first, others, rfl⟩ := mapM_cons_eq_some h
      rw [List.map_cons, List.map_cons, same a List.mem_cons_self b first,
        ih others fun a member => same a (List.mem_cons_of_mem _ member)]

end Traversal

section Sorting

variable {α : Type} (id : α → OpaqueId) (items : List α)

theorem sortById_perm : (sortById id items).Perm items := List.perm_insertionSort _ items

theorem sortById_sorted (nodup : (items.map id).Nodup) :
    (sortById id items).Pairwise fun a b => (id a).val < (id b).val := by
  let ordered (a b : α) : Prop := (id a).val ≤ (id b).val
  have : Std.Total ordered := ⟨fun a b => le_total (id a).val (id b).val⟩
  have : IsTrans α ordered := ⟨fun a b c => le_trans⟩
  have ascending : (sortById id items).Pairwise ordered := List.pairwise_insertionSort ordered items
  have distinct : (sortById id items).Pairwise fun a b => id a ≠ id b :=
    List.pairwise_map.mp (((sortById_perm id items).map id).nodup_iff.mpr nodup)
  exact ascending.imp₂ (fun _ _ le ne => lt_of_le_of_ne le fun same => ne (Subtype.ext same)) distinct

end Sorting

/-- The records of a state lie under their ids. -/
structure Keyed (state : GenerationState) : Prop where
  operations : ∀ {id operation}, state.operations.get? id = some operation → operation.operationId = id
  storages : ∀ {id storage}, state.storages.get? id = some storage → storage.storageId = id

/-- What a version keeps of the operations. -/
def Kept (version : Version) (operation : Operation) : Prop :=
  version.retainCommittedOperations ∨ operation.commit = none

section Arrays

variable {state : GenerationState} {snapshot : CheckpointArrays}

theorem checkpointArrays_eq_some (h : checkpointArrays state = some snapshot) :
    ∃ storages, state.storages.entries.mapM (fun entry => storedStorage state entry.1 entry.2) = some storages ∧
      snapshot.operations = sortById (·.operationId) (state.operations.values.filter fun operation =>
        state.contractVersion.retainCommittedOperations ∨ operation.commit = none) ∧
      snapshot.storages = sortById (·.storage.storageId) storages := by
  obtain ⟨storages, stored, h⟩ := Option.bind_eq_some_iff.mp h
  cases h
  exact ⟨storages, stored, rfl, rfl⟩

theorem storedStorage_eq_some {storageId : OpaqueId} {storage : StorageState} {stored : StoredStorage}
    (h : storedStorage state storageId storage = some stored) :
    stored.version = state.contractVersion ∧ stored.storage = storage ∧
      ∀ wrapper, stored = .wrapped wrapper →
        wrapper.currentAttachmentOriginOperationId = (state.attachmentOrigins.get? storageId).getD none := by
  unfold storedStorage at h
  cases version : state.contractVersion with
  | v2 =>
      rw [version] at h
      cases h
      exact ⟨rfl, rfl, fun _ wrapped => by cases wrapped⟩
  | v3 =>
      rw [version] at h
      simp only [Option.dite_none_right_eq_some, Option.some.injEq] at h
      obtain ⟨_, rfl⟩ := h
      refine ⟨rfl, rfl, ?_⟩
      rintro _ ⟨⟩
      rfl

/-- What the arrays hold: the kept operations and all storages, each once, in the order of their ids. -/
structure Snapshot (state : GenerationState) (snapshot : CheckpointArrays) : Prop where
  mem_operations : ∀ operation, operation ∈ snapshot.operations ↔
    state.operations.get? operation.operationId = some operation ∧ Kept state.contractVersion operation
  mem_storages : ∀ stored, stored ∈ snapshot.storages ↔
    ∃ storage, state.storages.get? stored.storage.storageId = some storage ∧
      storedStorage state storage.storageId storage = some stored
  all_stored : ∀ {id storage}, state.storages.get? id = some storage →
    ∃ stored ∈ snapshot.storages, stored.storage = storage
  operations_sorted : snapshot.operations.Pairwise fun a b => a.operationId.val < b.operationId.val
  storages_sorted : snapshot.storages.Pairwise fun a b =>
    a.storage.storageId.val < b.storage.storageId.val
  storages_length : snapshot.storages.length = state.storages.size

theorem snapshot_of_checkpointArrays (keyed : Keyed state) (h : checkpointArrays state = some snapshot) :
    Snapshot state snapshot := by
  obtain ⟨storages, stored, operations_eq, storages_eq⟩ := checkpointArrays_eq_some h
  have operationIds : (state.operations.values.map (·.operationId)).Nodup := by
    have keys : state.operations.values.map (·.operationId) = state.operations.keys := by
      rw [JsMap.values, JsMap.keys, List.map_map]
      exact List.map_congr_left fun entry inside => keyed.operations (JsMap.mem_entries.mp inside)
    rw [keys]
    exact state.operations.nodup
  have storageIds : storages.map (·.storage.storageId) = state.storages.keys := by
    refine mapM_map stored fun entry inside stored_one form => ?_
    rw [(storedStorage_eq_some form).2.1]
    exact keyed.storages (JsMap.mem_entries.mp inside)
  refine ⟨fun operation => ?_, fun item => ?_, ?_, ?_, ?_, ?_⟩
  · rw [operations_eq, (sortById_perm _ _).mem_iff, List.mem_filter, decide_eq_true_eq, JsMap.mem_values]
    refine and_congr_left fun _ => ⟨?_, fun found => ⟨_, found⟩⟩
    rintro ⟨id, found⟩
    rw [keyed.operations found]
    exact found
  · rw [storages_eq, (sortById_perm _ _).mem_iff, mapM_mem stored]
    constructor
    · rintro ⟨⟨id, storage⟩, inside, form⟩
      have found := JsMap.mem_entries.mp inside
      have key : storage.storageId = id := keyed.storages found
      rw [(storedStorage_eq_some form).2.1, key]
      exact ⟨storage, found, by rw [key]; exact form⟩
    · rintro ⟨storage, found, form⟩
      have key : storage.storageId = item.storage.storageId := keyed.storages found
      exact ⟨_, JsMap.mem_entries.mpr found, by rw [← key]; exact form⟩
  · intro id storage found
    obtain ⟨item, form⟩ := mapM_some stored (id, storage) (JsMap.mem_entries.mpr found)
    refine ⟨item, ?_, (storedStorage_eq_some form).2.1⟩
    rw [storages_eq, (sortById_perm _ _).mem_iff, mapM_mem stored]
    exact ⟨_, JsMap.mem_entries.mpr found, form⟩
  · rw [operations_eq]
    exact sortById_sorted _ _ (operationIds.sublist (List.filter_sublist.map _))
  · rw [storages_eq]
    refine sortById_sorted _ _ ?_
    rw [storageIds]
    exact state.storages.nodup
  · rw [storages_eq, (sortById_perm _ _).length_eq, ← List.length_map (f := (·.storage.storageId)),
      storageIds, JsMap.keys, List.length_map, JsMap.size]

end Arrays

/-! ### The loaded state -/

/-- The state that the frames of the arrays load, before it is validated. -/
def loadedState (state : GenerationState) (snapshot : CheckpointArrays) : GenerationState :=
  snapshot.storages.foldl addStorage
    (snapshot.operations.foldl addOperation
      (emptyGenerationState state.stateRevision state.contractVersion))

theorem foldl_addOperation (state : GenerationState) (operations : List Operation) :
    operations.foldl addOperation state =
      { state with
        operations := operations.foldl (fun m operation => m.set operation.operationId operation)
          state.operations } := by
  induction operations generalizing state with
  | nil => rfl
  | cons operation operations ih => rw [List.foldl_cons, ih]; rfl

theorem addStorage_storages (state : GenerationState) (stored : StoredStorage) :
    (addStorage state stored).storages = state.storages.set stored.storage.storageId stored.storage := by
  cases stored <;> rfl

theorem foldl_addStorage_storages (state : GenerationState) (storages : List StoredStorage) :
    (storages.foldl addStorage state).storages =
      (storages.map (·.storage)).foldl (fun m storage => m.set storage.storageId storage) state.storages := by
  induction storages generalizing state with
  | nil => rfl
  | cons stored storages ih => rw [List.foldl_cons, ih, addStorage_storages]; rfl

/-- Adding a storage changes storages and origins only. -/
theorem foldl_addStorage_frame (state : GenerationState) (storages : List StoredStorage) :
    (storages.foldl addStorage state).operations = state.operations ∧
      (storages.foldl addStorage state).stateRevision = state.stateRevision ∧
      (storages.foldl addStorage state).contractVersion = state.contractVersion := by
  induction storages generalizing state with
  | nil => exact ⟨rfl, rfl, rfl⟩
  | cons stored storages ih =>
      obtain ⟨operations, revision, version⟩ := ih (addStorage state stored)
      rw [List.foldl_cons, operations, revision, version]
      cases stored <;> exact ⟨rfl, rfl, rfl⟩

section Loaded

variable {state : GenerationState} {snapshot : CheckpointArrays}

theorem loadedState_contractVersion :
    (loadedState state snapshot).contractVersion = state.contractVersion := by
  rw [loadedState, (foldl_addStorage_frame _ _).2.2, foldl_addOperation]
  rfl

theorem loadedState_stateRevision : (loadedState state snapshot).stateRevision = state.stateRevision := by
  rw [loadedState, (foldl_addStorage_frame _ _).2.1, foldl_addOperation]
  rfl

theorem loadedState_operations_entries (facts : Snapshot state snapshot) :
    (loadedState state snapshot).operations.entries =
      snapshot.operations.map fun operation => (operation.operationId, operation) := by
  have ids : (snapshot.operations.map (·.operationId)).Nodup :=
    List.pairwise_map.mpr (facts.operations_sorted.imp fun less same => by
      rw [same] at less
      exact lt_irrefl _ less)
  rw [loadedState, (foldl_addStorage_frame _ _).1, foldl_addOperation]
  exact JsMap.foldl_set_entries _ _ ids fun _ _ => rfl

/-- The loaded operations are the kept ones. -/
theorem loadedState_operations (facts : Snapshot state snapshot) (keyed : Keyed state) {id : OpaqueId}
    {operation : Operation} :
    (loadedState state snapshot).operations.get? id = some operation ↔
      state.operations.get? id = some operation ∧ Kept state.contractVersion operation := by
  rw [← JsMap.mem_entries, loadedState_operations_entries facts, List.mem_map]
  constructor
  · rintro ⟨_, inside, ⟨⟩⟩
    exact (facts.mem_operations operation).mp inside
  · rintro ⟨found, kept⟩
    have key := keyed.operations found
    exact ⟨operation, (facts.mem_operations operation).mpr ⟨by rw [key]; exact found, kept⟩, by rw [key]⟩

theorem loadedState_storages_entries (facts : Snapshot state snapshot) :
    (loadedState state snapshot).storages.entries =
      (snapshot.storages.map (·.storage)).map fun storage => (storage.storageId, storage) := by
  have ids : ((snapshot.storages.map (·.storage)).map (·.storageId)).Nodup := by
    rw [List.map_map]
    exact List.pairwise_map.mpr (facts.storages_sorted.imp fun less same => by
      rw [Function.comp_apply, Function.comp_apply] at same
      rw [same] at less
      exact lt_irrefl _ less)
  rw [loadedState, foldl_addStorage_storages, foldl_addOperation]
  exact JsMap.foldl_set_entries _ _ ids fun _ _ => rfl

/-- The loaded storages are all of them. -/
theorem loadedState_storages (facts : Snapshot state snapshot) (keyed : Keyed state) (id : OpaqueId) :
    (loadedState state snapshot).storages.get? id = state.storages.get? id := by
  refine Option.ext fun storage => ?_
  rw [← JsMap.mem_entries, loadedState_storages_entries facts, List.mem_map]
  constructor
  · rintro ⟨_, inside, ⟨⟩⟩
    obtain ⟨stored, member, rfl⟩ := List.mem_map.mp inside
    obtain ⟨storage, found, form⟩ := (facts.mem_storages stored).mp member
    rw [(storedStorage_eq_some form).2.1] at found ⊢
    exact found
  · intro found
    obtain ⟨stored, member, rfl⟩ := facts.all_stored found
    exact ⟨stored.storage, List.mem_map_of_mem member, by rw [keyed.storages found]⟩

theorem addStorage_origins_of_ne (state : GenerationState) {stored : StoredStorage} {id : OpaqueId}
    (other : id ≠ stored.storage.storageId) :
    (addStorage state stored).attachmentOrigins.get? id = state.attachmentOrigins.get? id := by
  cases stored with
  | bare _ => rfl
  | wrapped wrapper => exact JsMap.get?_set_of_ne other

theorem foldl_addStorage_origins_of_notMem (state : GenerationState) {storages : List StoredStorage}
    {id : OpaqueId} (absent : ∀ stored ∈ storages, id ≠ stored.storage.storageId) :
    (storages.foldl addStorage state).attachmentOrigins.get? id = state.attachmentOrigins.get? id := by
  induction storages generalizing state with
  | nil => rfl
  | cons stored storages ih =>
      rw [List.foldl_cons, ih _ fun next member => absent next (List.mem_cons_of_mem _ member)]
      exact addStorage_origins_of_ne state (absent stored List.mem_cons_self)

theorem foldl_addStorage_origins_of_mem (state : GenerationState) {storages : List StoredStorage}
    (sorted : storages.Pairwise fun a b => a.storage.storageId.val < b.storage.storageId.val)
    {wrapper : StorageWrapper} (member : .wrapped wrapper ∈ storages) :
    (storages.foldl addStorage state).attachmentOrigins.get? wrapper.storage.storageId =
      some wrapper.currentAttachmentOriginOperationId := by
  induction storages generalizing state with
  | nil => cases member
  | cons stored storages ih =>
      obtain ⟨least, sorted⟩ := List.pairwise_cons.mp sorted
      rw [List.foldl_cons]
      rcases List.mem_cons.mp member with rfl | member
      · rw [foldl_addStorage_origins_of_notMem]
        · exact JsMap.get?_set_self
        · intro next inside same
          have less := least next inside
          rw [← same] at less
          exact lt_irrefl _ less
      · exact ih _ sorted member

/-- A version 3 checkpoint loads an origin for each storage: the one it had, or null. -/
theorem loadedState_origins (facts : Snapshot state snapshot) (keyed : Keyed state)
    (version : state.contractVersion = .v3) (id : OpaqueId) :
    (loadedState state snapshot).attachmentOrigins.get? id =
      (state.storages.get? id).map fun _ => (state.attachmentOrigins.get? id).getD none := by
  cases found : state.storages.get? id with
  | none =>
      rw [loadedState, foldl_addStorage_origins_of_notMem, foldl_addOperation]
      · rfl
      · rintro stored member rfl
        obtain ⟨storage, present, -⟩ := (facts.mem_storages stored).mp member
        rw [found] at present
        cases present
  | some storage =>
      obtain ⟨stored, member, rfl⟩ := facts.all_stored found
      obtain ⟨storage, present, form⟩ := (facts.mem_storages stored).mp member
      obtain ⟨stored_version, same, origin⟩ := storedStorage_eq_some form
      have key := keyed.storages present
      cases stored with
      | bare _ =>
          rw [version] at stored_version
          cases stored_version
      | wrapped wrapper =>
          have id_eq : wrapper.storage.storageId = id := keyed.storages found
          rw [← id_eq, loadedState, foldl_addStorage_origins_of_mem _ facts.storages_sorted member,
            Option.map_some, origin wrapper rfl, key]
          rfl

end Loaded

/-! ### Writing -/

section Writing

variable {writer next final : CheckpointWriter} {body : CheckpointBody} {bodies : List CheckpointBody}

theorem appendCheckpointFrame_eq_some (h : appendCheckpointFrame writer body = some next) :
    ∃ place frame encoded, body (some writer.previousChecksum) ⟨writer.sequence, place⟩ = some frame ∧
      encodeCanonicalFrame frame = some encoded ∧
      next = { bytes := writer.bytes ++ encoded.bytes
               previousChecksum := encoded.checksum
               sequence := writer.sequence + 1 } := by
  simp only [appendCheckpointFrame, Option.dite_none_right_eq_some, Option.bind_eq_bind,
    Option.bind_eq_some_iff, ensure_eq_some_iff, exists_const, Option.some.injEq] at h
  obtain ⟨place, frame, made, encoded, encodes, -, rfl⟩ := h
  exact ⟨place, frame, encoded, made, encodes, rfl⟩

theorem foldlM_cons_eq_some (h : (body :: bodies).foldlM appendCheckpointFrame writer = some final) :
    ∃ next, appendCheckpointFrame writer body = some next ∧
      bodies.foldlM appendCheckpointFrame next = some final := by
  rw [List.foldlM_cons] at h
  exact Option.bind_eq_some_iff.mp h

/-- What is written stays. -/
theorem written_within (h : bodies.foldlM appendCheckpointFrame writer = some final) :
    writer.bytes <+: final.bytes := by
  induction bodies generalizing writer with
  | nil =>
      cases h
      exact List.prefix_refl _
  | cons body bodies ih =>
      obtain ⟨next, appended, rest⟩ := foldlM_cons_eq_some h
      obtain ⟨_, _, encoded, -, -, rfl⟩ := appendCheckpointFrame_eq_some appended
      exact (List.prefix_append _ _).trans (ih rest)

end Writing

/-! ### Reading what was written -/

/-- A reader that stands where a writer stood. -/
structure Tracks (reader : CheckpointReader) (writer : CheckpointWriter) : Prop where
  offset : reader.offset = writer.bytes.length
  sequence : reader.sequence = writer.sequence
  checksum : reader.checksum = some writer.previousChecksum

theorem CheckpointReader.after_sequence (reader : CheckpointReader) (envelope : Envelope CheckpointFrame)
    (state : GenerationState) (hash : StateHash) :
    (reader.after envelope state hash).sequence = reader.sequence + 1 := rfl

section Reading

variable {file : Bytes} {head : LedgerHead} {reader : CheckpointReader}
  {writer next final : CheckpointWriter}

/-- The frame that was written at a place is read there. -/
theorem readCheckpointFrame_written {body : CheckpointBody}
    (appended : appendCheckpointFrame writer body = some next) (inside : next.bytes <+: file)
    (whole : head.checkpointBytes.val = file.length) (tracks : Tracks reader writer) :
    ∃ place frame, body (some writer.previousChecksum) ⟨writer.sequence, place⟩ = some frame ∧
      (frame.contractVersion = head.contractVersion → frame.sequence.val = writer.sequence →
        readCheckpointFrame file head reader = some ⟨next.previousChecksum, frame, next.bytes.length⟩) ∧
      next.sequence = writer.sequence + 1 := by
  obtain ⟨place, frame, encoded, made, encodes, rfl⟩ := appendCheckpointFrame_eq_some appended
  refine ⟨place, frame, made, fun version sequence => ?_, rfl⟩
  obtain ⟨rest, rfl⟩ := inside
  have read := ((frameCodec_of_frame CheckpointFrame).read_encoded frame encoded encodes writer.bytes rest).2
    head.checkpointBytes.val (by
      rw [whole]
      simp only [List.length_append]
      omega)
  rw [List.append_assoc, readCheckpointFrame, tracks.offset, tracks.sequence, ← version, ← sequence,
    List.length_append]
  exact read

theorem Tracks.after (tracks : Tracks reader writer) (step : next.sequence = writer.sequence + 1)
    (frame : CheckpointFrame) (state : GenerationState) (hash : StateHash) :
    Tracks (reader.after ⟨next.previousChecksum, frame, next.bytes.length⟩ state hash) next where
  offset := rfl
  sequence := by rw [step, ← tracks.sequence]; rfl
  checksum := rfl

variable {generation : PositiveUint64} {rest : List CheckpointBody}

theorem readCheckpointOperations_written (generation_eq : head.generation.val = generation.val)
    (whole : head.checkpointBytes.val = file.length) (inside : final.bytes <+: file)
    {operations : List Operation} (previous : Option OpaqueId)
    (written : (operations.map (checkpointOperationBody head.contractVersion generation) ++ rest).foldlM
      appendCheckpointFrame writer = some final)
    (tracks : Tracks reader writer)
    (sorted : operations.Pairwise fun a b => a.operationId.val < b.operationId.val)
    (above : ∀ id ∈ previous, ∀ operation ∈ operations, id.val < operation.operationId.val)
    (fresh : ∀ operation ∈ operations, reader.state.operations.get? operation.operationId = none) :
    ∃ reader' writer', readCheckpointOperations file head operations.length previous reader = some reader' ∧
      rest.foldlM appendCheckpointFrame writer' = some final ∧ Tracks reader' writer' ∧
      reader'.state = operations.foldl addOperation reader.state ∧
      reader'.hash = operations.foldl (hashOperation head.contractVersion) reader.hash ∧
      reader'.sequence = reader.sequence + operations.length := by
  induction operations generalizing reader writer previous with
  | nil => exact ⟨reader, writer, rfl, written, tracks, rfl, rfl, rfl⟩
  | cons operation operations ih =>
      obtain ⟨next, appended, written⟩ := foldlM_cons_eq_some written
      obtain ⟨_, frame, made, read, step⟩ := readCheckpointFrame_written appended
        ((written_within written).trans inside) whole tracks
      simp only [checkpointOperationBody, Option.dite_none_right_eq_some, Option.some.injEq] at made
      obtain ⟨projected, made⟩ := made
      obtain ⟨least, sorted⟩ := List.pairwise_cons.mp sorted
      have other {next : Operation} (member : next ∈ operations) :
          next.operationId ≠ operation.operationId := fun same =>
        absurd (least next member) (by rw [same]; exact lt_irrefl _)
      obtain ⟨reader', writer', loop, rest, tracks', state, hash, sequence⟩ := ih
        (some operation.operationId) written
        (tracks.after step frame (addOperation reader.state operation)
          (hashOperation head.contractVersion reader.hash operation)) sorted
        (by
          rintro _ ⟨⟩ next member
          exact least next member)
        (by
          intro next member
          show (reader.state.operations.set operation.operationId operation).get? next.operationId = none
          rw [JsMap.get?_set_of_ne (other member)]
          exact fresh next (List.mem_cons_of_mem _ member))
      subst made
      refine ⟨reader', writer', ?_, rest, tracks', state, hash, ?_⟩
      · rw [List.length_cons, readCheckpointOperations, read rfl rfl]
        simp only [Option.bind_eq_bind, Option.bind_some]
        rw [ensure_pos, Option.bind_some]
        · exact loop
        · exact ⟨generation_eq.symm, tracks.checksum.symm,
            fun id member => above id member operation List.mem_cons_self,
            JsMap.has_eq_false.mpr (fresh operation List.mem_cons_self)⟩
      · rw [sequence, List.length_cons]
        show reader.sequence + 1 + _ = _
        omega

theorem readCheckpointStorages_written (generation_eq : head.generation.val = generation.val)
    (whole : head.checkpointBytes.val = file.length) (inside : final.bytes <+: file)
    {storages : List StoredStorage} (previous : Option OpaqueId)
    (versions : ∀ stored ∈ storages, stored.version = head.contractVersion)
    (written : (storages.map (checkpointStorageBody generation) ++ rest).foldlM appendCheckpointFrame
      writer = some final)
    (tracks : Tracks reader writer)
    (sorted : storages.Pairwise fun a b => a.storage.storageId.val < b.storage.storageId.val)
    (above : ∀ id ∈ previous, ∀ stored ∈ storages, id.val < stored.storage.storageId.val)
    (fresh : ∀ stored ∈ storages, reader.state.storages.get? stored.storage.storageId = none) :
    ∃ reader' writer', readCheckpointStorages file head storages.length previous reader = some reader' ∧
      rest.foldlM appendCheckpointFrame writer' = some final ∧ Tracks reader' writer' ∧
      reader'.state = storages.foldl addStorage reader.state ∧
      reader'.hash = storages.foldl hashStorage reader.hash ∧
      reader'.sequence = reader.sequence + storages.length := by
  induction storages generalizing reader writer previous with
  | nil => exact ⟨reader, writer, rfl, written, tracks, rfl, rfl, rfl⟩
  | cons stored storages ih =>
      obtain ⟨next, appended, written⟩ := foldlM_cons_eq_some written
      obtain ⟨_, frame, made, read, step⟩ := readCheckpointFrame_written appended
        ((written_within written).trans inside) whole tracks
      have made := Option.some.inj made
      obtain ⟨least, sorted⟩ := List.pairwise_cons.mp sorted
      have other {next : StoredStorage} (member : next ∈ storages) :
          next.storage.storageId ≠ stored.storage.storageId := fun same =>
        absurd (least next member) (by rw [same]; exact lt_irrefl _)
      obtain ⟨reader', writer', loop, rest, tracks', state, hash, sequence⟩ := ih
        (some stored.storage.storageId)
        (fun next member => versions next (List.mem_cons_of_mem _ member)) written
        (tracks.after step frame (addStorage reader.state stored) (hashStorage reader.hash stored))
        sorted
        (by
          rintro _ ⟨⟩ next member
          exact least next member)
        (by
          intro next member
          show (addStorage reader.state stored).storages.get? next.storage.storageId = none
          rw [addStorage_storages, JsMap.get?_set_of_ne (other member)]
          exact fresh next (List.mem_cons_of_mem _ member))
      subst made
      refine ⟨reader', writer', ?_, rest, tracks', state, hash, ?_⟩
      · rw [List.length_cons, readCheckpointStorages, read (versions stored List.mem_cons_self) rfl]
        simp only [Option.bind_eq_bind, Option.bind_some]
        rw [ensure_pos, Option.bind_some]
        · exact loop
        · exact ⟨generation_eq.symm, tracks.checksum.symm,
            fun id member => above id member stored List.mem_cons_self,
            JsMap.has_eq_false.mpr (fresh stored List.mem_cons_self)⟩
      · rw [sequence, List.length_cons]
        show reader.sequence + 1 + _ = _
        omega

end Reading

/-! ### The whole stream -/

/-- A head that names a written checkpoint. -/
structure Names (head : LedgerHead) (state : GenerationState) (generation : PositiveUint64)
    (baseHeadChecksum : Checksum) (checkpoint : CheckpointResult) : Prop where
  version : head.contractVersion = state.contractVersion
  generation : head.generation.val = generation.val
  base : head.baseHeadChecksum = some baseHeadChecksum
  stateRevision : head.checkpointStateRevision = state.stateRevision
  frameCount : head.checkpointFrameCount = checkpoint.checkpointFrameCount
  bytes : head.checkpointBytes = checkpoint.checkpointBytes
  checksum : head.checkpointChecksum = some checkpoint.checkpointChecksum

/-- The bytes of a checkpoint load its arrays, which then are validated. -/
theorem parseCheckpointStream_written {state : GenerationState} {snapshot : CheckpointArrays}
    {generation : PositiveUint64} {baseHeadChecksum : Checksum} {checkpoint : CheckpointResult}
    {head : LedgerHead} (keyed : Keyed state) (arrays : checkpointArrays state = some snapshot)
    (written : writeCheckpointFrames state generation baseHeadChecksum = some checkpoint)
    (names : Names head state generation baseHeadChecksum checkpoint) :
    parseCheckpointStream checkpoint.bytes head = validateCheckpointState (loadedState state snapshot) := by
  have facts := snapshot_of_checkpointArrays keyed arrays
  simp only [writeCheckpointFrames, arrays, Option.bind_eq_bind, Option.bind_some,
    Option.dite_none_right_eq_some, Option.bind_eq_some_iff, ensure_eq_some_iff, exists_const,
    Option.some.injEq] at written
  obtain ⟨count, final, frames, total, size, rfl⟩ := written
  have whole : head.checkpointBytes.val = final.bytes.length := by rw [names.bytes]
  have version := names.version
  simp only [checkpointBodies, ← version] at frames
  -- the start frame
  obtain ⟨next, appended, frames⟩ := foldlM_cons_eq_some frames
  let opened : CheckpointReader := {
    state := emptyGenerationState head.checkpointStateRevision head.contractVersion
    hash := createCheckpointStateHash head.contractVersion head.checkpointStateRevision
    checksum := head.baseHeadChecksum
    offset := 0
    sequence := 1 }
  have tracks : Tracks opened { bytes := [], previousChecksum := baseHeadChecksum, sequence := 1 } :=
    ⟨rfl, rfl, names.base⟩
  obtain ⟨_, startFrame, made, readStart, step⟩ := readCheckpointFrame_written appended
    (written_within frames) whole tracks
  -- the operations
  obtain ⟨afterOperations, next', operationsLoop, frames, tracks, operationsState, operationsHash,
    operationsSequence⟩ := readCheckpointOperations_written names.generation whole (List.prefix_refl _)
      none frames (tracks.after step startFrame opened.state opened.hash)
      facts.operations_sorted
      (by rintro _ ⟨⟩) (fun _ _ => rfl)
  -- the storages
  have versions : ∀ stored ∈ snapshot.storages, stored.version = head.contractVersion := by
    intro stored member
    obtain ⟨storage, -, form⟩ := (facts.mem_storages stored).mp member
    rw [(storedStorage_eq_some form).1, version]
  obtain ⟨afterStorages, next'', storagesLoop, frames, tracks, storagesState, storagesHash,
    storagesSequence⟩ := readCheckpointStorages_written names.generation whole (List.prefix_refl _)
      none versions frames tracks facts.storages_sorted (by rintro _ ⟨⟩) (by
        intro stored _
        rw [operationsState, foldl_addOperation]
        rfl)
  -- the end frame
  obtain ⟨last, appended, frames⟩ := foldlM_cons_eq_some frames
  obtain rfl := Option.some.inj frames
  obtain ⟨_, endFrame, ended, readEnd, -⟩ := readCheckpointFrame_written appended
    (List.prefix_refl _) whole tracks
  obtain rfl := Option.some.inj ended
  have loaded : afterStorages.state = loadedState state snapshot := by
    rw [storagesState, operationsState, loadedState, ← version, ← names.stateRevision]
    rfl
  obtain rfl := Option.some.inj made
  rw [parseCheckpointStream, readCheckpointStart, readStart rfl rfl]
  simp only [Option.bind_eq_bind, Option.bind_some]
  rw [ensure_pos, Option.bind_some, Option.bind_some, operationsLoop, Option.bind_some, storagesLoop, Option.bind_some,
    readCheckpointEnd, readEnd rfl rfl]
  simp only [Option.bind_eq_bind, Option.bind_some]
  · rw [ensure_pos, Option.bind_some, loaded]
    refine ⟨names.generation.symm, names.stateRevision.symm, trivial, trivial, tracks.checksum.symm, ?_,
      whole.symm, names.checksum.symm, ?_⟩
    · rw [storagesHash, operationsHash, ← names.stateRevision]
      rfl
    · rw [storagesSequence, operationsSequence, CheckpointReader.after_sequence, names.frameCount]
      simp only [opened]
      omega
  · refine ⟨names.generation.symm, names.stateRevision.symm, names.base.symm, names.base.symm, ?_⟩
    rw [names.frameCount]

end PortableCodex.ProviderState
