import PortableCodex.ProviderState.FrameSize
import PortableCodex.ProviderState.ReplayInvariant

/-!
A checkpoint is written unless it has too many frames.

The frames of a checkpoint are counted in 32 bits, and `writeCheckpointFrames` fails on a state with
more. That is its only limit: the bytes of so many frames are counted by a safe integer
(`writeCheckpointFrames_of_capacity`).
-/

namespace PortableCodex.ProviderState

open Js

section Writing

variable {writer : CheckpointWriter} {bodies : List CheckpointBody}

/-- A body that makes a frame at every place. -/
def Writes (body : CheckpointBody) : Prop :=
  ∀ previousChecksum sequence, ∃ frame, body previousChecksum sequence = some frame

/-- The bytes of a checkpoint with so many frames. -/
def Bounded (writer : CheckpointWriter) : Prop :=
  writer.bytes.length ≤ (writer.sequence - 1) * (96 + framePayloadBound)

theorem appendCheckpointFrame_of_writes {body : CheckpointBody} (writes : Writes body)
    (place : 1 ≤ writer.sequence ∧ writer.sequence ≤ maxUint32) (bounded : Bounded writer) :
    ∃ next, appendCheckpointFrame writer body = some next ∧ next.sequence = writer.sequence + 1 ∧
      Bounded next := by
  obtain ⟨frame, made⟩ := writes (some writer.previousChecksum) ⟨writer.sequence, place⟩
  have size : (encoding frame).bytes.length ≤ 96 + framePayloadBound := encoding_length_le frame.within
  have grown : writer.bytes.length + (encoding frame).bytes.length ≤
      writer.sequence * (96 + framePayloadBound) := by
    obtain ⟨n, form⟩ := Nat.exists_eq_add_of_le' place.1
    rw [Bounded, form, Nat.add_sub_cancel] at bounded
    rw [form, Nat.succ_mul]
    exact Nat.add_le_add bounded size
  have safe : writer.sequence * (96 + framePayloadBound) ≤ maxSafeInteger :=
    (Nat.mul_le_mul_right _ place.2).trans (by decide)
  refine ⟨{
    bytes := writer.bytes ++ (encoding frame).bytes
    previousChecksum := (encoding frame).checksum
    sequence := writer.sequence + 1 }, ?_, rfl, ?_⟩
  · rw [appendCheckpointFrame, dif_pos place, made]
    simp only [Option.bind_eq_bind, Option.bind_some, encodeCanonicalFrame_checkpoint]
    rw [ensure_pos (grown.trans safe), Option.bind_some]
  · rw [Bounded, List.length_append, Nat.add_sub_cancel]
    exact grown

theorem foldlM_appendCheckpointFrame (writes : ∀ body ∈ bodies, Writes body) (first : 1 ≤ writer.sequence)
    (last : writer.sequence + bodies.length ≤ maxUint32 + 1) (bounded : Bounded writer) :
    ∃ final, bodies.foldlM appendCheckpointFrame writer = some final ∧
      final.sequence = writer.sequence + bodies.length ∧ Bounded final := by
  induction bodies generalizing writer with
  | nil => exact ⟨writer, rfl, rfl, bounded⟩
  | cons body bodies ih =>
      rw [List.length_cons] at last
      obtain ⟨next, appended, sequence, bounded⟩ :=
        appendCheckpointFrame_of_writes (writes body List.mem_cons_self) ⟨first, by omega⟩ bounded
      obtain ⟨final, rest, count, bounded⟩ :=
        ih (fun body member => writes body (List.mem_cons_of_mem _ member)) (by omega) (by omega) bounded
      refine ⟨final, ?_, by rw [count, sequence, List.length_cons]; omega, bounded⟩
      rw [List.foldlM_cons, appended]
      exact rest

end Writing

section State

variable {state : GenerationState} {snapshot : CheckpointArrays}

/-- The frames of the checkpoint can be counted. -/
def WithinCapacity (snapshot : CheckpointArrays) : Prop :=
  snapshot.operations.length + snapshot.storages.length + 2 ≤ maxUint32

theorem mapM_eq_some_of_forall {α β : Type} {f : α → Option β} {items : List α}
    (h : ∀ a ∈ items, ∃ b, f a = some b) : ∃ results, items.mapM f = some results := by
  induction items with
  | nil => exact ⟨[], rfl⟩
  | cons a items ih =>
      obtain ⟨b, first⟩ := h a List.mem_cons_self
      obtain ⟨rest, others⟩ := ih fun a member => h a (List.mem_cons_of_mem _ member)
      exact ⟨b :: rest, by rw [List.mapM_cons, first, others]; rfl⟩

/-- The storages of a state have the origins that its checkpoint keeps. -/
theorem Invariant.snapshots (h : Invariant state) : ∃ snapshot, checkpointArrays state = some snapshot := by
  have stored : ∀ entry ∈ state.storages.entries, ∃ stored, storedStorage state entry.1 entry.2 = some stored := by
    rintro ⟨id, storage⟩ member
    have origin := h.origins id
    rw [JsMap.mem_entries.mp member] at origin
    unfold storedStorage
    cases state.contractVersion with
    | v2 => exact ⟨_, rfl⟩
    | v3 =>
        cases found : state.attachmentOrigins.get? id with
        | none => rw [found] at origin; exact origin.elim
        | some value =>
            rw [found] at origin
            refine ⟨_, dif_pos ?_⟩
            change storage.lifecycle = .attached ↔ value ≠ none at origin
            split
            · rename_i attached
              exact origin.mp attached
            · rename_i detached
              exact not_not.mp fun ne => detached (origin.mpr ne)
  obtain ⟨storages, all⟩ := mapM_eq_some_of_forall stored
  exact ⟨_, by rw [checkpointArrays, all]; rfl⟩

/-- Every frame of the checkpoint of a state can be made. -/
theorem writes_checkpointBodies (keyed : Keyed state) (arrays : checkpointArrays state = some snapshot)
    (generation : PositiveUint64) (baseHeadChecksum : Checksum) (operationCount storageCount : Count) :
    ∀ body ∈ checkpointBodies state generation baseHeadChecksum snapshot operationCount storageCount,
      Writes body := by
  have facts := snapshot_of_checkpointArrays keyed arrays
  refine List.forall_mem_cons.mpr ⟨fun _ _ => ⟨_, rfl⟩, fun body member => ?_⟩
  rcases List.mem_append.mp member with member | member
  · obtain ⟨operation, inside, rfl⟩ := List.mem_map.mp member
    intro previousChecksum sequence
    refine ⟨_, dif_pos fun version => ?_⟩
    -- a version 3 checkpoint holds prepared operations only
    rcases ((facts.mem_operations operation).mp inside).2 with retained | prepared
    · rw [version] at retained
      cases retained
    · exact prepared
  · rcases List.mem_append.mp member with member | member
    · obtain ⟨storage, -, rfl⟩ := List.mem_map.mp member
      exact fun _ _ => ⟨_, rfl⟩
    · obtain rfl := List.mem_singleton.mp member
      exact fun _ _ => ⟨_, rfl⟩

theorem writeCheckpointFrames_of_capacity (keyed : Keyed state)
    (arrays : checkpointArrays state = some snapshot) (capacity : WithinCapacity snapshot)
    (generation : PositiveUint64) (baseHeadChecksum : Checksum) :
    ∃ checkpoint, writeCheckpointFrames state generation baseHeadChecksum = some checkpoint := by
  have counted : snapshot.operations.length + snapshot.storages.length + 2 ≤ maxUint32 := capacity
  let operationCount : Count := ⟨snapshot.operations.length, by omega⟩
  let storageCount : Count := ⟨snapshot.storages.length, by omega⟩
  let bodies := checkpointBodies state generation baseHeadChecksum snapshot operationCount storageCount
  have writes : ∀ body ∈ bodies, Writes body :=
    writes_checkpointBodies keyed arrays generation baseHeadChecksum operationCount storageCount
  have length : bodies.length = snapshot.operations.length + snapshot.storages.length + 2 := by
    simp only [bodies, checkpointBodies, List.length_cons, List.length_append, List.length_map,
      List.length_nil]
    omega
  have bounded : Bounded { bytes := [], previousChecksum := baseHeadChecksum, sequence := 1 } :=
    Nat.zero_le _
  obtain ⟨final, written, sequence, bounded⟩ := foldlM_appendCheckpointFrame writes le_rfl
    (by rw [length]; dsimp only; omega) bounded
  rw [length] at sequence
  dsimp only at sequence
  have size : final.bytes.length ≤ maxSafeInteger := by
    have count : final.sequence - 1 ≤ maxUint32 := by omega
    exact bounded.trans ((Nat.mul_le_mul_right _ count).trans (by decide))
  refine ⟨{
    bytes := final.bytes
    checkpointBytes := ⟨final.bytes.length, size⟩
    checkpointChecksum := final.previousChecksum
    checkpointFrameCount := ⟨snapshot.operations.length + snapshot.storages.length + 2, counted⟩ }, ?_⟩
  rw [writeCheckpointFrames, arrays]
  simp only [Option.bind_eq_bind, Option.bind_some]
  rw [dif_pos counted, written, Option.bind_some, ensure_pos (by omega), Option.bind_some, dif_pos size]

end State

end PortableCodex.ProviderState
