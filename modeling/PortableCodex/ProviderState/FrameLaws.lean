import PortableCodex.ProviderState.Frame

/-!
Every frame normalizes to itself, from memory and from its text, and a normalizer returns frames of
its version.
-/

namespace PortableCodex.ProviderState

open Js

section Forms

variable (form : Form)

theorem ownString_record {keys : List JsString} {values : List JsValue} {key s : JsString}
    (nodup : keys.Nodup) (length : values.length = keys.length)
    (member : (key, JsValue.string s) ∈ keys.zip values) :
    ownString (form.of (record keys values)) key = some s := by
  have names : (keys.zip values).map Prod.fst = keys := List.map_fst_zip length.ge
  have distinct : ((keys.zip values).map Prod.fst).Nodup := by rwa [names]
  obtain ⟨ms, object, lookup⟩ := exactDataObject_of form distinct (List.Perm.of_eq names)
  have plain := inspectPlainObject_eq_some_iff.mpr
    ⟨(exactDataObject_eq_some object).1, (exactDataObject_eq_some object).2.1⟩
  have found : getMember ms key = some (.string s) := by
    rw [lookup, (getMember_eq_some_iff distinct).mpr member, Option.map_some, form.of_string]
  rw [ownString, record, plain]
  simp only [Option.bind_eq_bind, Option.bind_some, found]

@[simp] theorem isText_string (s : JsString) : isText s (form.of (.string s)) = true := by
  simp [isText]

/-! ### Operation records -/

theorem readPreparedOperation_reads (operation : Operation) :
    readPreparedOperation (form.of (.string operation.kind.text)) (form.of (textJson operation.operationId))
      (form.of (textJson operation.preparedChecksum))
      (form.of (uint64Json operation.preparedStateRevision)) (form.of operation.request.value)
      (form.of (textJson operation.storageId))
      (form.of (storageBeforeJson operation.storageStateBefore)) operation.commit = some operation := by
  refine read_then (canonicalOperationKind_reads form operation.kind) ?_
  refine read_then (canonicalOpaqueId_reads form operation.operationId) ?_
  refine read_then (sha256Text_reads form operation.preparedChecksum) ?_
  refine read_then (canonicalPositiveUint64_reads form operation.preparedStateRevision) ?_
  refine read_then (readCanonicalObject_reads form operation.request) ?_
  refine read_then (canonicalOpaqueId_reads form operation.storageId) ?_
  refine read_then (canonicalStorageStateBefore_reads form operation.storageStateBefore) ?_
  rfl

theorem normalizeCheckpointOperationRecord_reads :
    Reads normalizeCheckpointOperationRecord Operation.json := by
  intro form operation
  have readPrepared := readPreparedOperation_reads form operation
  unfold Operation.json
  cases commit : operation.commit with
  | none =>
      rw [commit] at readPrepared
      refine read_then (ownString_record form (s := js "prepared") (by decide) rfl
        (List.mem_of_getElem? (i := 5) rfl)) ?_
      rw [if_pos rfl]
      refine read_then (exactDataFields_record rfl (by decide)) ?_
      exact readPrepared
  | some data =>
      rw [commit] at readPrepared
      refine read_then (ownString_record form (s := js "committed") (by decide) rfl
        (List.mem_of_getElem? (i := 5) rfl)) ?_
      rw [if_neg (by decide), if_pos rfl]
      refine read_then (exactDataFields_record rfl (by decide)) ?_
      refine read_then (canonicalPositiveUint64_reads form data.committedStateRevision) ?_
      refine read_then (canonicalExpectedStorage_reads form data.expectedStorage) ?_
      refine read_then (readCanonicalObject_reads form data.result) ?_
      refine read_then (canonicalStorageState_reads form data.storageState) ?_
      exact readPrepared

/-! ### Delta frames -/

theorem ensure_versioned (version : Version) (text : JsString) :
    ensure (isVersion version (form.of version.json) ∧ isText text (form.of (.string text)) = true) =
      some () :=
  ensure_pos ⟨isVersion_json form version, isText_string form text⟩

theorem normalizePreparedDeltaFrame_json (frame : PreparedFrame) :
    normalizePreparedDeltaFrame frame.contractVersion (form.of frame.json) = some frame := by
  refine read_then (exactDataFields_record rfl (by decide)) ?_
  refine read_then (ensure_versioned form _ _) ?_
  refine read_then (canonicalOperationKind_reads form frame.kind) ?_
  refine read_then (canonicalOpaqueId_reads form frame.operationId) ?_
  refine read_then (canonicalPreviousChecksum_reads form frame.previousChecksum) ?_
  refine read_then (readCanonicalObject_reads form frame.request) ?_
  refine read_then (canonicalSequence_reads form frame.sequence) ?_
  refine read_then (canonicalPositiveUint64_reads form frame.stateRevision) ?_
  refine read_then (canonicalOpaqueId_reads form frame.storageId) ?_
  refine read_then (canonicalStorageStateBefore_reads form frame.storageStateBefore) ?_
  rfl

theorem normalizeCommittedDeltaFrame_json (frame : CommittedFrame) :
    normalizeCommittedDeltaFrame frame.contractVersion (form.of frame.json) = some frame := by
  refine read_then (exactDataFields_record rfl (by decide)) ?_
  refine read_then (ensure_versioned form _ _) ?_
  refine read_then (canonicalExpectedStorage_reads form frame.expectedStorage) ?_
  refine read_then (canonicalOpaqueId_reads form frame.operationId) ?_
  refine read_then (canonicalPreviousChecksum_reads form frame.preparedChecksum) ?_
  refine read_then (canonicalPreviousChecksum_reads form frame.previousChecksum) ?_
  refine read_then (readCanonicalObject_reads form frame.result) ?_
  refine read_then (canonicalSequence_reads form frame.sequence) ?_
  refine read_then (canonicalPositiveUint64_reads form frame.stateRevision) ?_
  refine read_then (canonicalStorageState_reads form frame.storageState) ?_
  rfl

theorem normalizeDeltaFrame_json (frame : DeltaFrame) :
    normalizeDeltaFrame frame.contractVersion (form.of frame.json) = some frame := by
  cases frame with
  | prepared frame =>
      refine read_then (ownString_record form (s := js "prepared") (by decide) rfl
        (List.mem_of_getElem? (i := 9) rfl)) ?_
      rw [if_pos rfl]
      exact congrArg _ (normalizePreparedDeltaFrame_json form frame)
  | committed frame =>
      refine read_then (ownString_record form (s := js "committed") (by decide) rfl
        (List.mem_of_getElem? (i := 9) rfl)) ?_
      rw [if_neg (by decide), if_pos rfl]
      exact congrArg _ (normalizeCommittedDeltaFrame_json form frame)

/-! ### Checkpoint frames -/

theorem normalizeCheckpointStartFrame_json (frame : CheckpointStart) :
    normalizeCheckpointStartFrame frame.contractVersion (form.of frame.json) = some frame := by
  have nodup : (checkpointStartKeys frame.contractVersion).Nodup := by
    cases frame.contractVersion <;> decide
  refine read_then (exactDataFields_record rfl nodup) ?_
  refine read_then (ensure_versioned form _ _) ?_
  refine read_then (canonicalCount_reads form frame.operationCount) ?_
  refine read_then (canonicalCount_reads form frame.storageCount) ?_
  refine read_then (sha256Text_reads form frame.baseHeadChecksum) ?_
  refine read_then (canonicalPositiveUint64_reads form frame.generation) ?_
  refine read_then (canonicalPreviousChecksum_reads form frame.previousChecksum) ?_
  refine read_then (canonicalCheckpointSequence_reads form frame.sequence) ?_
  refine read_then (canonicalUint64_reads form frame.stateRevision) ?_
  rfl

theorem normalizeCheckpointOperationFrame_json (frame : CheckpointOperation) :
    normalizeCheckpointOperationFrame frame.contractVersion (form.of frame.json) = some frame := by
  refine read_then (exactDataFields_record rfl (by decide)) ?_
  refine read_then (ensure_versioned form _ _) ?_
  refine read_then (normalizeCheckpointOperationRecord_reads form frame.operation) ?_
  refine read_then (canonicalPositiveUint64_reads form frame.generation) ?_
  refine read_then (canonicalPreviousChecksum_reads form frame.previousChecksum) ?_
  refine read_then (canonicalCheckpointSequence_reads form frame.sequence) ?_
  exact dif_pos frame.projected

theorem normalizeCheckpointStorageWrapper_reads :
    Reads normalizeCheckpointStorageWrapper StorageWrapper.json := by
  intro form wrapper
  refine read_then (exactDataFields_record rfl (by decide)) ?_
  refine read_then
    (nullable_reads canonicalOpaqueId_reads rfl form wrapper.currentAttachmentOriginOperationId) ?_
  refine read_then (canonicalStorageState_reads form wrapper.storage) ?_
  exact dif_pos wrapper.attached

theorem readStoredStorage_json (storage : StoredStorage) :
    readStoredStorage storage.version (form.of storage.json) = some storage := by
  cases storage with
  | bare storage =>
      simp only [readStoredStorage, StoredStorage.version, StoredStorage.json,
        Version.retainCommittedOperations, if_true, canonicalStorageState_reads form storage, Option.map_some]
  | wrapped wrapper =>
      simp only [readStoredStorage, StoredStorage.version, StoredStorage.json,
        Version.retainCommittedOperations, Bool.false_eq_true, if_false,
        normalizeCheckpointStorageWrapper_reads form wrapper, Option.map_some]

theorem normalizeCheckpointStorageFrame_json (frame : CheckpointStorage) :
    normalizeCheckpointStorageFrame frame.storage.version (form.of frame.json) = some frame := by
  refine read_then (exactDataFields_record rfl (by decide)) ?_
  refine read_then (ensure_versioned form _ _) ?_
  refine read_then (canonicalPositiveUint64_reads form frame.generation) ?_
  refine read_then (canonicalPreviousChecksum_reads form frame.previousChecksum) ?_
  refine read_then (canonicalCheckpointSequence_reads form frame.sequence) ?_
  refine read_then (readStoredStorage_json form frame.storage) ?_
  rfl

theorem normalizeCheckpointEndFrame_json (frame : CheckpointEnd) :
    normalizeCheckpointEndFrame frame.contractVersion (form.of frame.json) = some frame := by
  have nodup : (checkpointEndKeys frame.contractVersion).Nodup := by
    cases frame.contractVersion <;> decide
  refine read_then (exactDataFields_record rfl nodup) ?_
  refine read_then (ensure_versioned form _ _) ?_
  refine read_then (canonicalCount_reads form frame.operationCount) ?_
  refine read_then (canonicalCount_reads form frame.storageCount) ?_
  refine read_then (sha256Text_reads form frame.stateChecksum) ?_
  refine read_then (canonicalPositiveUint64_reads form frame.generation) ?_
  refine read_then (canonicalPreviousChecksum_reads form frame.previousChecksum) ?_
  refine read_then (canonicalCheckpointSequence_reads form frame.sequence) ?_
  refine read_then (canonicalUint64_reads form frame.stateRevision) ?_
  rfl

theorem normalizeCheckpointFrame_json (frame : CheckpointFrame) :
    normalizeCheckpointFrame frame.contractVersion (form.of frame.json) = some frame := by
  cases frame with
  | start frame =>
      have nodup : (checkpointStartKeys frame.contractVersion).Nodup := by
        cases frame.contractVersion <;> decide
      refine read_then (ownString_record form (s := js "checkpoint-start") nodup rfl
        (List.mem_of_getElem? (i := 8) rfl)) ?_
      rw [if_pos rfl]
      exact congrArg _ (normalizeCheckpointStartFrame_json form frame)
  | operation frame =>
      refine read_then (ownString_record form (s := frame.contractVersion.operationType) (by decide) rfl
        (List.mem_of_getElem? (i := 5) rfl)) ?_
      have notStart : frame.contractVersion.operationType ≠ js "checkpoint-start" := by
        cases frame.contractVersion <;> decide
      rw [if_neg notStart, CheckpointFrame.contractVersion, if_pos rfl]
      exact congrArg _ (normalizeCheckpointOperationFrame_json form frame)
  | storage frame =>
      refine read_then (ownString_record form (s := js "checkpoint-storage") (by decide) rfl
        (List.mem_of_getElem? (i := 5) rfl)) ?_
      have notOperation : js "checkpoint-storage" ≠
          (CheckpointFrame.storage frame).contractVersion.operationType := by
        cases (CheckpointFrame.storage frame).contractVersion <;> decide
      rw [if_neg (by decide), if_neg notOperation, if_pos rfl]
      exact congrArg _ (normalizeCheckpointStorageFrame_json form frame)
  | finish frame =>
      have nodup : (checkpointEndKeys frame.contractVersion).Nodup := by
        cases frame.contractVersion <;> decide
      refine read_then (ownString_record form (s := js "checkpoint-end") nodup rfl
        (List.mem_of_getElem? (i := 8) rfl)) ?_
      have notOperation : js "checkpoint-end" ≠
          (CheckpointFrame.finish frame).contractVersion.operationType := by
        cases (CheckpointFrame.finish frame).contractVersion <;> decide
      rw [if_neg (by decide), if_neg notOperation, if_neg (by decide), if_pos rfl]
      exact congrArg _ (normalizeCheckpointEndFrame_json form frame)

end Forms

/-! ### Versions of normalized frames -/

section Versions

variable {version : Version} {value : JsValue}

theorem normalizePreparedDeltaFrame_version {frame : PreparedFrame}
    (h : normalizePreparedDeltaFrame version value = some frame) : frame.contractVersion = version := by
  obtain ⟨_, -, h⟩ := Option.bind_eq_some_iff.mp h
  split at h
  · iterate 9 obtain ⟨_, -, h⟩ := Option.bind_eq_some_iff.mp h
    cases h
    rfl
  · cases h

theorem normalizeCommittedDeltaFrame_version {frame : CommittedFrame}
    (h : normalizeCommittedDeltaFrame version value = some frame) : frame.contractVersion = version := by
  obtain ⟨_, -, h⟩ := Option.bind_eq_some_iff.mp h
  split at h
  · iterate 9 obtain ⟨_, -, h⟩ := Option.bind_eq_some_iff.mp h
    cases h
    rfl
  · cases h

theorem normalizeDeltaFrame_version {frame : DeltaFrame}
    (h : normalizeDeltaFrame version value = some frame) : frame.contractVersion = version := by
  obtain ⟨_, -, h⟩ := Option.bind_eq_some_iff.mp h
  split at h
  · obtain ⟨frame, normalized, rfl⟩ := Option.map_eq_some_iff.mp h
    exact normalizePreparedDeltaFrame_version normalized
  split at h
  · obtain ⟨frame, normalized, rfl⟩ := Option.map_eq_some_iff.mp h
    exact normalizeCommittedDeltaFrame_version normalized
  · cases h

theorem normalizeCheckpointStartFrame_version {frame : CheckpointStart}
    (h : normalizeCheckpointStartFrame version value = some frame) : frame.contractVersion = version := by
  obtain ⟨_, -, h⟩ := Option.bind_eq_some_iff.mp h
  split at h
  · iterate 8 obtain ⟨_, -, h⟩ := Option.bind_eq_some_iff.mp h
    cases h
    rfl
  · cases h

theorem normalizeCheckpointOperationFrame_version {frame : CheckpointOperation}
    (h : normalizeCheckpointOperationFrame version value = some frame) :
    frame.contractVersion = version := by
  obtain ⟨_, -, h⟩ := Option.bind_eq_some_iff.mp h
  split at h
  · iterate 5 obtain ⟨_, -, h⟩ := Option.bind_eq_some_iff.mp h
    split at h
    · cases h
      rfl
    · cases h
  · cases h

theorem readStoredStorage_version {storage : StoredStorage}
    (h : readStoredStorage version value = some storage) : storage.version = version := by
  cases version with
  | v2 =>
      obtain ⟨_, -, rfl⟩ := Option.map_eq_some_iff.mp h
      rfl
  | v3 =>
      obtain ⟨_, -, rfl⟩ := Option.map_eq_some_iff.mp h
      rfl

theorem normalizeCheckpointStorageFrame_version {frame : CheckpointStorage}
    (h : normalizeCheckpointStorageFrame version value = some frame) :
    frame.storage.version = version := by
  obtain ⟨_, -, h⟩ := Option.bind_eq_some_iff.mp h
  split at h
  · iterate 4 obtain ⟨_, -, h⟩ := Option.bind_eq_some_iff.mp h
    obtain ⟨storage, read, h⟩ := Option.bind_eq_some_iff.mp h
    cases h
    exact readStoredStorage_version read
  · cases h

theorem normalizeCheckpointEndFrame_version {frame : CheckpointEnd}
    (h : normalizeCheckpointEndFrame version value = some frame) : frame.contractVersion = version := by
  obtain ⟨_, -, h⟩ := Option.bind_eq_some_iff.mp h
  split at h
  · iterate 8 obtain ⟨_, -, h⟩ := Option.bind_eq_some_iff.mp h
    cases h
    rfl
  · cases h

theorem normalizeCheckpointFrame_version {frame : CheckpointFrame}
    (h : normalizeCheckpointFrame version value = some frame) : frame.contractVersion = version := by
  obtain ⟨_, -, h⟩ := Option.bind_eq_some_iff.mp h
  split at h
  · obtain ⟨frame, normalized, rfl⟩ := Option.map_eq_some_iff.mp h
    exact normalizeCheckpointStartFrame_version normalized
  split at h
  · obtain ⟨frame, normalized, rfl⟩ := Option.map_eq_some_iff.mp h
    exact normalizeCheckpointOperationFrame_version normalized
  split at h
  · obtain ⟨frame, normalized, rfl⟩ := Option.map_eq_some_iff.mp h
    exact normalizeCheckpointStorageFrame_version normalized
  split at h
  · obtain ⟨frame, normalized, rfl⟩ := Option.map_eq_some_iff.mp h
    exact normalizeCheckpointEndFrame_version normalized
  · cases h

end Versions

end PortableCodex.ProviderState
