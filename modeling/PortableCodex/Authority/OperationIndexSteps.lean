import PortableCodex.Authority.OperationIndexLaws

/-!
What one advance does to an index and to the state that it mirrors.

A prepared frame adds a row, a committed one completes it, and a rotation leaves the rows. Each keeps the mirror
(`Mirrors.prepare`, `Mirrors.complete`, `Mirrors.rotate`), the room under the head (`Roomy`) and the last commit of
every storage (`Latest`).
-/

namespace PortableCodex.Authority

open Js ProviderState HeadAnchor

/-! ### What an append reads back -/

/-- The frame that was appended is the last one that is read, and makes its record on the cached state. -/
theorem appendDeltaEvent_applied {cache next : GenerationCache} {event : DeltaEvent} (loaded : Loaded cache)
    (h : appendDeltaEvent cache event = some next) :
    ∃ encoded record, encodeDeltaEvent cache.head event = some encoded ∧
      applyDeltaFrame cache.state encoded.frame encoded.checksum encoded.frame.sequence.val =
        some (record, next.state) ∧
      next.head.lastChecksum = some encoded.checksum ∧
      next.head.stateRevision = revisionOf encoded.frame.stateRevision := by
  simp only [appendDeltaEvent, Option.bind_eq_bind, Option.bind_eq_some_iff, ensure_eq_some_iff, exists_const,
    Option.some.injEq] at h
  obtain ⟨encoded, encodes, -, nextHead, head, state, parsed, rfl⟩ := h
  obtain ⟨same, sequence, revision⟩ := encodeDeltaEvent_eq_some encodes
  obtain ⟨sameVersion, linked⟩ := encodeDeltaEvent_linked encodes
  have fields : nextHead.contractVersion = cache.head.contractVersion ∧
      nextHead.frameCount.val = encoded.frame.sequence.val ∧
      nextHead.checkpointChecksum = cache.head.checkpointChecksum ∧
      nextHead.lastChecksum = some encoded.checksum ∧
      nextHead.stateRevision = revisionOf encoded.frame.stateRevision := by
    simp only [appendedHead, Option.bind_eq_bind, Option.bind_eq_some_iff,
      Option.dite_none_right_eq_some] at head
    obtain ⟨_, -, _, built⟩ := head
    rw [ledgerHead_eq_some built]
    exact ⟨rfl, rfl, rfl, rfl, rfl⟩
  obtain ⟨version, count, checkpoint, last, stateRevision⟩ := fields
  simp only [Loaded, parseActiveLedger, Option.bind_eq_bind, Option.bind_eq_some_iff, ensure_eq_some_iff,
    exists_const, Option.some.injEq] at loaded parsed
  obtain ⟨-, ⟨-, length⟩, reader, read, ⟨offset, -, -⟩, held⟩ := loaded
  obtain ⟨-, -, final, readAll, -, rfl⟩ := parsed
  -- the frames before the last are those of the cached ledger
  rw [version, count, sequence, checkpoint, readActiveFrames_succ, readActiveFrames_append read,
    Option.bind_some] at readAll
  simp only [readActiveFrames, Option.bind_eq_bind, Option.bind_eq_some_iff, ensure_eq_some_iff, exists_const,
    Option.some.injEq] at readAll
  obtain ⟨envelope, here, -, ⟨record, state⟩, applied, rfl⟩ := readAll
  have fits : Fits encoded.frame := fits_of_within encoded.frame.within
  have encodedHere := parseEnvelopeFromBuffer_eq_some_iff.mpr (isEnvelope_encoding fits cache.ledger [])
  have place : 1 + cache.head.frameCount.val = encoded.frame.sequence.val := by omega
  rw [List.append_nil, ← same] at encodedHere
  rw [place, offset, ← length, ← sameVersion] at here
  obtain rfl := Option.some.inj (encodedHere.symm.trans here)
  rw [held, place] at applied
  exact ⟨encoded, record, encodes, applied, last, stateRevision⟩

/-! ### Rows of a later head -/

section Rows

variable {index next : OperationIndex} {head nextHead : LedgerHead} {row new : OperationRow} {id : OpaqueId}

/-- What was visible before is older than the head, so that nothing more is asked of its checksums. -/
theorem VisibleAtHead.later (h : VisibleAtHead head row)
    (later : head.stateRevision.val < nextHead.stateRevision.val) : VisibleAtHead nextHead row := by
  obtain ⟨prepared, -, committed⟩ := h
  refine ⟨by omega, fun same => by omega, fun commit member => ?_⟩
  obtain ⟨bound, -⟩ := committed commit member
  exact ⟨by omega, fun same => by omega⟩

/-- A new generation does not end in an operation frame. -/
theorem VisibleAtHead.rotated (h : VisibleAtHead head row) (same : nextHead.stateRevision = head.stateRevision)
    (noFrames : ¬ HeadEndsInOperationFrame nextHead) : VisibleAtHead nextHead row := by
  obtain ⟨prepared, -, committed⟩ := h
  refine ⟨same ▸ prepared, fun _ frames => absurd frames noFrames, fun commit member => ?_⟩
  exact ⟨same ▸ (committed commit member).1, fun _ frames => absurd frames noFrames⟩

namespace OperationIndex

variable {storageId operationId : OpaqueId} {storage : StorageState} {commit : Commit}

theorem Attached.congr (h : index.Attached storageId storage operationId row commit)
    (same : next.operations = index.operations) : next.Attached storageId storage operationId row commit where
  found := by rw [same]; exact h.found
  committed := h.committed
  attaches := h.attaches
  storage_eq := h.storage_eq
  stable := h.stable
  revision := h.revision
  latest := by rw [same]; exact h.latest

/-- An attachment stays when another row is written that does not attach the storage. -/
theorem Attached.set (h : index.Attached storageId storage operationId row commit)
    (written : next.operations = index.operations.set id new)
    (pending : ∀ old, index.operations.get? id = some old → old.record.commit = none)
    (others : ∀ later, new.record.commit = some later → new.record.kind.Attaches →
      new.record.storageId ≠ storageId) : next.Attached storageId storage operationId row commit where
  found := by
    have other : operationId ≠ id := by
      rintro rfl
      have unfinished := pending row h.found
      rw [h.committed] at unfinished
      cases unfinished
    rw [written, JsMap.get?_set_of_ne other]
    exact h.found
  committed := h.committed
  attaches := h.attaches
  storage_eq := h.storage_eq
  stable := h.stable
  revision := h.revision
  latest := by
    intro i other later found committed attaches storage
    rw [written, JsMap.get?_set] at found
    split at found
    · obtain rfl := Option.some.inj found
      exact absurd storage (others later committed attaches)
    · exact h.latest found committed attaches storage

theorem Attached.changed (h : index.Attached storageId storage operationId row commit) {later : StorageState}
    (stable : storage.stable = later.stable) (revision : storage.revision.val ≤ later.revision.val) :
    index.Attached storageId later operationId row commit :=
  { h with stable := h.stable.trans stable, revision := h.revision.trans revision }

end OperationIndex

end Rows

theorem storageState_ext {a b : StorageState} (same : a.toStorageRecord = b.toStorageRecord) : a = b := by
  cases a
  cases b
  cases same
  rfl

/-- A checkpoint or a restore leaves the storage as it is but for its revision. -/
theorem stable_of_keepsState {previous next : StorageState} (same : SameStorage previous next)
    (keeps : KeepsState previous next) : previous.stable = next.stable := by
  obtain ⟨-, storageId, sessionId, backendId, filesystemId, imagePath, -⟩ := same
  obtain ⟨lifecycle, writerEpoch, writerAuthority, ⟨-, -, mount, -, -, control⟩, attachment, dataRoot⟩ := keeps
  refine storageState_ext ?_
  simp only [StorageState.stable, StorageRecord.mk.injEq]
  exact ⟨storageId.symm, sessionId.symm, backendId.symm, filesystemId.symm, imagePath.symm, lifecycle.symm, trivial,
    writerEpoch.symm, writerAuthority, mount, control, dataRoot, attachment⟩

/-! ### One step of the mirror -/

namespace OperationIndex

section Steps

variable {index : OperationIndex} {head nextHead : LedgerHead} {state : GenerationState} {checksum : Checksum}

/-- The index behind an advance that writes a row. -/
def wrote (index : OperationIndex) (nextHead : LedgerHead) (id : OpaqueId) (row : OperationRow) : OperationIndex where
  head := nextHead
  operationIndexStateRevision := nextHead.stateRevision
  operations := index.operations.set id row

theorem get?_wrote {row : OperationRow} {id i : OpaqueId} :
    (index.wrote nextHead id row).operations.get? i = if i = id then some row else index.operations.get? i :=
  JsMap.get?_set i

theorem Mirrors.prepare (mirrors : index.Mirrors head state) {frame : PreparedFrame}
    (fresh : index.operations.get? frame.operationId = none)
    (later : head.stateRevision.val < nextHead.stateRevision.val)
    (revision : frame.stateRevision.val = nextHead.stateRevision.val)
    (last : nextHead.lastChecksum = some checksum) :
    (index.wrote nextHead frame.operationId
      { record := makePreparedRecord frame checksum, committedChecksum := none }).Mirrors nextHead
        (state.prepare frame checksum) where
  head_eq := rfl
  revision_eq := rfl
  keyed := by
    intro id row found
    rw [get?_wrote] at found
    split at found
    · rename_i same
      obtain rfl := Option.some.inj found
      exact same.symm
    · exact mirrors.keyed id row found
  visible := by
    intro id row found
    rw [get?_wrote] at found
    split at found
    · obtain rfl := Option.some.inj found
      refine ⟨revision.le, fun _ _ => last.symm, ?_⟩
      rintro _ ⟨⟩
    · exact (mirrors.visible found).later later
  pending := by
    intro id operation
    show (state.operations.set _ _).get? id = some operation ∧ _ ↔ _
    rw [get?_wrote, JsMap.get?_set]
    split
    · constructor
      · rintro ⟨found, pending⟩
        obtain rfl := Option.some.inj found
        exact ⟨pending, rfl⟩
      · rintro ⟨pending, found⟩
        exact ⟨congrArg (Option.map OperationRow.record) found, pending⟩
    · exact mirrors.pending
  unstamped := by
    intro id row found pending
    rw [get?_wrote] at found
    split at found
    · obtain rfl := Option.some.inj found
      rfl
    · exact mirrors.unstamped found pending
  attached := by
    intro id storage found attached
    obtain ⟨operationId, row, commit, origin, attachment⟩ := mirrors.attached found attached
    refine ⟨operationId, row, commit, origin, attachment.set rfl ?_ ?_⟩
    · intro old here
      rw [fresh] at here
      cases here
    · rintro _ ⟨⟩

variable {frame : CommittedFrame} {operation : Operation} {origin : Option OpaqueId}

/-- A commit that leaves its storage attached has the row of the attachment as origin: its own, or the one before. -/
theorem Mirrors.committed_attached (mirrors : index.Mirrors head state)
    (accepted : Commits state frame operation origin) (keyed : ProviderState.Keyed state)
    (later : head.stateRevision.val < nextHead.stateRevision.val)
    (revision : frame.stateRevision.val = nextHead.stateRevision.val) (checksum : Checksum)
    (attached : frame.storageState.lifecycle = .attached) :
    ∃ operationId row commit, origin = some operationId ∧
      (index.wrote nextHead frame.operationId
        { record := makeCommittedRecord operation frame, committedChecksum := some checksum }).Attached
          operation.storageId frame.storageState operationId row commit := by
  have operationId : operation.operationId = frame.operationId := keyed.operations accepted.found
  have transition := accepted.transition
  have origin_eq := accepted.origin_eq
  have current := accepted.current
  cases before : operation.storageStateBefore with
  | none =>
      rw [before] at transition
      obtain ⟨-, lifecycle, -⟩ := transition
      rw [attached] at lifecycle
      cases lifecycle
  | some previous =>
      rw [before] at transition current
      obtain ⟨same, effect⟩ := transition_cases transition
      rcases effect with ⟨attaches, -⟩ | ⟨-, -, lifecycle, -⟩ | ⟨-, -, lifecycle, -⟩ | ⟨kind, keeps⟩
      · -- the operation is the origin, and its row is the last one
        have here : origin = some operation.operationId := by
          rcases attaches with kind | kind <;>
          · rw [committedAttachmentOrigin, kind] at origin_eq
            exact (Option.some.inj origin_eq).symm
        let commit : Commit := {
          committedStateRevision := frame.stateRevision, expectedStorage := frame.expectedStorage
          result := frame.result, storageState := frame.storageState }
        refine ⟨operation.operationId,
          { record := makeCommittedRecord operation frame, committedChecksum := some checksum }, commit, here, ?_⟩
        refine {
          found := by rw [operationId, get?_wrote, if_pos rfl]
          committed := rfl
          attaches := attaches
          storage_eq := rfl
          stable := rfl
          revision := le_rfl
          latest := ?_ }
        intro i other last found committed _ _
        rw [get?_wrote] at found
        split at found
        · obtain rfl := Option.some.inj found
          obtain rfl := Option.some.inj committed
          exact le_rfl
        · have bound := ((mirrors.visible found).2.2 last committed).1
          show last.committedStateRevision.val ≤ frame.stateRevision.val
          omega
      · rw [attached] at lifecycle
        cases lifecycle
      · rw [attached] at lifecycle
        cases lifecycle
      · -- the origin is the one before
        obtain ⟨attachedBy, row, commit, earlier, attachment⟩ :=
          mirrors.attached current (keeps.1.symm.trans attached)
        have here : origin = some attachedBy := by
          rcases kind with kind | kind <;>
          · rw [committedAttachmentOrigin, kind, earlier] at origin_eq
            exact (Option.some.inj origin_eq).symm
        have count := revision_of_transition transition
        refine ⟨attachedBy, row, commit, here, ?_⟩
        refine (attachment.changed (stable_of_keepsState same keeps) ?_).set rfl ?_ ?_
        · rw [count]
          exact Nat.le_succ _
        · intro old found
          rw [(mirrors.pending.mp ⟨accepted.found, accepted.pending⟩).2] at found
          obtain rfl := Option.some.inj found
          exact accepted.pending
        · rintro _ - attaches
          change operation.kind.Attaches at attaches
          rcases kind with kind | kind <;> rw [kind] at attaches <;> rcases attaches with no | no <;> cases no

theorem Mirrors.complete (mirrors : index.Mirrors head state) (accepted : Commits state frame operation origin)
    (keyed : ProviderState.Keyed state) (later : head.stateRevision.val < nextHead.stateRevision.val)
    (revision : frame.stateRevision.val = nextHead.stateRevision.val)
    (last : nextHead.lastChecksum = some checksum) :
    (index.wrote nextHead frame.operationId
      { record := makeCommittedRecord operation frame, committedChecksum := some checksum }).Mirrors nextHead
        (state.complete frame operation origin) := by
  have self : Pending state frame.operationId operation := ⟨accepted.found, accepted.pending⟩
  have held := (mirrors.pending.mp self).2
  have operationId : operation.operationId = frame.operationId := keyed.operations accepted.found
  have unfinished : ∀ old, index.operations.get? frame.operationId = some old → old.record.commit = none := by
    intro old here
    rw [held] at here
    obtain rfl := Option.some.inj here
    exact accepted.pending
  refine {
    head_eq := rfl
    revision_eq := rfl
    keyed := ?_
    visible := ?_
    pending := ?_
    unstamped := ?_
    attached := ?_ }
  · intro id row found
    rw [get?_wrote] at found
    split at found
    · rename_i same
      obtain rfl := Option.some.inj found
      exact operationId.trans same.symm
    · exact mirrors.keyed id row found
  · intro id row found
    rw [get?_wrote] at found
    split at found
    · obtain rfl := Option.some.inj found
      have prepared := (mirrors.visible held).1
      change operation.preparedStateRevision.val ≤ _ at prepared
      refine ⟨?_, ?_, ?_⟩
      · show operation.preparedStateRevision.val ≤ _
        omega
      · intro same
        change operation.preparedStateRevision.val = _ at same
        omega
      · rintro _ ⟨⟩
        exact ⟨revision.le, fun _ _ => last.symm⟩
    · exact (mirrors.visible found).later later
  · intro id other
    show (state.operations.set _ _).get? id = some other ∧ _ ↔ _
    rw [get?_wrote, JsMap.get?_set]
    split
    · constructor
      · rintro ⟨found, pending⟩
        obtain rfl := Option.some.inj found
        cases pending
      · rintro ⟨pending, found⟩
        obtain rfl := congrArg (·.record) (Option.some.inj found)
        cases pending
    · exact mirrors.pending
  · intro id row found pending
    rw [get?_wrote] at found
    split at found
    · obtain rfl := Option.some.inj found
      cases pending
    · exact mirrors.unstamped found pending
  · intro id storage found attached
    change (state.storages.set _ _).get? id = _ at found
    show ∃ operationId row commit, (state.attachmentOrigins.set _ _).get? id = _ ∧ _
    rw [JsMap.get?_set] at found
    rw [JsMap.get?_set]
    split at found
    · rename_i here
      obtain rfl := Option.some.inj found
      obtain ⟨operationId, row, commit, rfl, attachment⟩ :=
        mirrors.committed_attached accepted keyed later revision checksum attached
      rw [if_pos here, here]
      exact ⟨operationId, row, commit, rfl, attachment⟩
    · rename_i other
      rw [if_neg other]
      obtain ⟨operationId', row, commit, origin', attachment⟩ := mirrors.attached found attached
      exact ⟨operationId', row, commit, origin', attachment.set rfl unfinished fun _ _ _ => Ne.symm other⟩

theorem Mirrors.rotate {expectedHead : LedgerHead} {snapshot : CheckpointArrays} {result : Rotation}
    (mirrors : index.Mirrors head state) (reached : Reached state)
    (rotates : Rotates expectedHead state snapshot result)
    (same : result.head.stateRevision = head.stateRevision) (noFrames : ¬ HeadEndsInOperationFrame result.head) :
    Mirrors { index with head := result.head, operationIndexStateRevision := result.head.stateRevision }
      result.head result.state where
  head_eq := rfl
  revision_eq := rfl
  keyed := mirrors.keyed
  visible := fun found => (mirrors.visible found).rotated same noFrames
  pending := (rotates.pending reached.invariant.keyed).trans mirrors.pending
  unstamped := mirrors.unstamped
  attached := by
    intro id storage found attached
    rw [rotates.storages reached.invariant.keyed] at found
    obtain ⟨operationId, row, commit, origin, attachment⟩ := mirrors.attached found attached
    exact ⟨operationId, row, commit, (rotates.origins reached id).trans origin, attachment.congr rfl⟩

end Steps

end OperationIndex

/-! ### Room under a head -/

section Room

variable {head nextHead : LedgerHead} {state : GenerationState}

theorem preparedOperations_prepare {frame : PreparedFrame} {checksum : Checksum}
    (fresh : state.operations.get? frame.operationId = none) :
    (preparedOperations (state.prepare frame checksum)).length = (preparedOperations state).length + 1 := by
  show (List.filter _ ((state.operations.set _ _).entries.map Prod.snd)).length = _
  rw [JsMap.set_entries_of_fresh fresh, List.map_append, List.filter_append, List.length_append]
  rfl

theorem preparedOperations_complete {frame : CommittedFrame} {operation : Operation} {origin : Option OpaqueId} :
    (preparedOperations (state.complete frame operation origin)).length ≤ (preparedOperations state).length := by
  show (List.filter _ ((state.operations.set _ _).entries.map Prod.snd)).length ≤ _
  rw [((JsMap.set_entries_perm.map Prod.snd).filter _).length_eq, List.map_cons, List.filter_cons_of_neg]
  · exact ((List.filter_sublist.map Prod.snd).filter _).length_le
  · exact of_decide_eq_false rfl

theorem set_size_le {K V : Type} [DecidableEq K] {m : JsMap K V} {key : K} {value : V} :
    (m.set key value).size ≤ m.size + 1 := by
  rw [JsMap.size, JsMap.set_entries_perm.length_eq, List.length_cons]
  exact Nat.succ_le_succ List.filter_sublist.length_le

theorem Roomy.append (roomy : OperationIndex.Roomy head state) (appended : Appended head nextHead)
    {checksum : Checksum} {frame : DeltaFrame} {record : Operation} {next : GenerationState}
    (step : Applied state checksum frame record next) : OperationIndex.Roomy nextHead next := by
  obtain ⟨prepared, storages⟩ := roomy
  have count := appended.frameCount
  have checkpoint := congrArg Subtype.val appended.checkpointFrameCount
  cases step with
  | prepared accepted =>
      constructor
      · rw [preparedOperations_prepare accepted.fresh]
        omega
      · show state.storages.size ≤ _
        omega
  | committed accepted =>
      rename_i frame operation origin
      constructor
      · have fewer := @preparedOperations_complete state frame operation origin
        omega
      · have more := @set_size_le _ _ _ state.storages operation.storageId frame.storageState
        show (state.storages.set _ _).size ≤ _
        omega

/-- A checkpoint has a frame for every record and for every storage, besides its first and its last one. -/
theorem rotation_frameCount {expectedHead : LedgerHead} {snapshot : CheckpointArrays} {result : Rotation}
    (h : ProviderState.rotation expectedHead state = some result) (arrays : checkpointArrays state = some snapshot) :
    result.head.checkpointFrameCount.val = snapshot.operations.length + snapshot.storages.length + 2 := by
  simp only [ProviderState.rotation, Option.bind_eq_bind, Option.bind_eq_some_iff, ensure_eq_some_iff, exists_const,
    Option.some.injEq] at h
  obtain ⟨-, generation, -, checkpoint, written, head, rotated, loaded, -, _, -, _, -, -, rfl⟩ := h
  simp only [writeCheckpointFrames, arrays, Option.bind_eq_bind, Option.bind_some,
    Option.dite_none_right_eq_some, Option.bind_eq_some_iff, ensure_eq_some_iff, exists_const,
    Option.some.injEq] at written
  obtain ⟨_, _, -, -, _, rfl⟩ := written
  simp only [rotatedHead, Option.bind_eq_bind, Option.bind_eq_some_iff,
    Option.dite_none_right_eq_some] at rotated
  obtain ⟨_, -, _, built⟩ := rotated
  show head.toHeadRecord.checkpointFrameCount.val = _
  rw [ledgerHead_eq_some built]

theorem Roomy.rotate {expectedHead : LedgerHead} {snapshot : CheckpointArrays} {result : Rotation}
    (reached : Reached state) (rotated : ProviderState.rotation expectedHead state = some result)
    (rotates : Rotates expectedHead state snapshot result) : OperationIndex.Roomy result.head result.state := by
  have facts := snapshot_of_checkpointArrays reached.invariant.keyed rotates.arrays
  obtain ⟨-, -, operations, storages, -⟩ := validateCheckpointState_eq_some rotates.validated
  have count := rotation_frameCount rotated rotates.arrays
  constructor
  · have fewer : (preparedOperations result.state).length ≤ result.state.operations.values.length :=
      List.filter_sublist.length_le
    rw [operations, JsMap.values, loadedState_operations_entries facts, List.length_map, List.length_map] at fewer
    omega
  · rw [storages, JsMap.size, loadedState_storages_entries facts, List.length_map, List.length_map]
    omega

end Room

/-! ### The last commit of a storage -/

namespace OperationIndex

section Latest

variable {index : OperationIndex} {storageId : OpaqueId} {storage : StorageState}

/-- The row of the last commit to a storage. -/
structure LastCommit (index : OperationIndex) (storageId : OpaqueId) (storage : StorageState) (id : OpaqueId)
    (row : OperationRow) (commit : Commit) : Prop where
  found : index.operations.get? id = some row
  storage_eq : row.record.storageId = storageId
  committed : row.record.commit = some commit
  state_eq : commit.storageState = storage
  last : ∀ {i other earlier}, index.operations.get? i = some other → other.record.storageId = storageId →
    other.record.commit = some earlier → i ≠ id →
      earlier.committedStateRevision.val < commit.committedStateRevision.val

/-- What the rows say of a storage is what the state holds. -/
def Latest (index : OperationIndex) (storageId : OpaqueId) : Option StorageState → Prop
  | none => ∀ id row, index.operations.get? id = some row → row.record.storageId = storageId →
      row.record.commit = none
  | some storage => ∃ id row commit, index.LastCommit storageId storage id row commit

theorem laterCommitted_total (a b : Commit × OperationRow) : LaterCommitted a b ∨ LaterCommitted b a := by
  unfold LaterCommitted
  rcases Nat.lt_trichotomy a.1.committedStateRevision.val b.1.committedStateRevision.val with less | same | more
  · exact .inr (.inl less)
  · rcases le_total a.2.record.operationId.val b.2.record.operationId.val with le | le
    · exact .inr (.inr ⟨same.symm, le⟩)
    · exact .inl (.inr ⟨same, le⟩)
  · exact .inl (.inl more)

theorem laterCommitted_trans {a b c : Commit × OperationRow} (first : LaterCommitted a b)
    (second : LaterCommitted b c) : LaterCommitted a c := by
  unfold LaterCommitted at *
  rcases first with less | ⟨same, le⟩ <;> rcases second with less' | ⟨same', le'⟩
  · exact .inl (less'.trans less)
  · exact .inl (by omega)
  · exact .inl (by omega)
  · exact .inr ⟨same.trans same', le'.trans le⟩

theorem mem_committedRows {entry : Commit × OperationRow} : entry ∈ index.committedRows storageId ↔
    entry.2 ∈ index.operations.values ∧ entry.2.record.storageId = storageId ∧
      entry.2.record.commit = some entry.1 := by
  obtain ⟨commit, row⟩ := entry
  rw [committedRows, List.mem_insertionSort, List.mem_filterMap]
  constructor
  · rintro ⟨other, inside, form⟩
    split at form
    · rename_i same
      obtain ⟨_, committed, pair⟩ := Option.map_eq_some_iff.mp form
      cases pair
      exact ⟨inside, same, committed⟩
    · cases form
  · rintro ⟨inside, same, committed⟩
    refine ⟨row, inside, ?_⟩
    rw [if_pos same, committed]
    rfl

theorem committedRows_sorted : (index.committedRows storageId).Pairwise LaterCommitted := by
  have : Std.Total LaterCommitted := ⟨laterCommitted_total⟩
  have : IsTrans _ LaterCommitted := ⟨fun _ _ _ => laterCommitted_trans⟩
  exact List.pairwise_insertionSort LaterCommitted _

/-- The authority reads the current storage from its rows. -/
theorem readLatestCommittedStorageState_eq (keyed : index.Keyed)
    (visible : ∀ row ∈ index.operations.values, VisibleAtHead index.head row) {current : Option StorageState}
    (latest : index.Latest storageId current) :
    index.readLatestCommittedStorageState storageId = some current := by
  have sorted := @committedRows_sorted index storageId
  unfold readLatestCommittedStorageState
  cases rows : index.committedRows storageId with
  | nil =>
      cases current with
      | none => rfl
      | some storage =>
          obtain ⟨id, row, commit, last⟩ := latest
          have member : (commit, row) ∈ index.committedRows storageId :=
            mem_committedRows.mpr ⟨JsMap.mem_values.mpr ⟨id, last.found⟩, last.storage_eq, last.committed⟩
          rw [rows] at member
          cases member
  | cons first rest =>
      obtain ⟨inside, storage_eq, committed⟩ := mem_committedRows.mp (rows ▸ List.mem_cons_self :
        first ∈ index.committedRows storageId)
      have found := keyed.mem_values.mp inside
      refine read_then (ensure_pos (visible _ inside)) ?_
      cases current with
      | none =>
          rw [latest _ _ found storage_eq] at committed
          cases committed
      | some storage =>
          obtain ⟨id, row, commit, last⟩ := latest
          by_cases same : first.2.record.operationId = id
          · rw [same, last.found] at found
            obtain rfl := Option.some.inj found
            rw [last.committed] at committed
            obtain rfl := Option.some.inj committed
            rw [last.state_eq]
          · -- the first row would not come before the last commit
            have less := last.last found storage_eq committed same
            have member : (commit, row) ∈ first :: rest := by
              rw [← rows]
              exact mem_committedRows.mpr ⟨JsMap.mem_values.mpr ⟨id, last.found⟩, last.storage_eq, last.committed⟩
            rw [rows] at sorted
            rcases List.mem_cons.mp member with here | later
            · rw [← here] at less
              exact absurd less (lt_irrefl _)
            · have order := (List.pairwise_cons.mp sorted).1 _ later
              unfold LaterCommitted at order
              dsimp only at order
              omega

variable {next : OperationIndex} {id : OpaqueId} {new : OperationRow} {current : Option StorageState}

theorem Latest.congr (h : index.Latest storageId current) (same : next.operations = index.operations) :
    next.Latest storageId current := by
  cases current with
  | none =>
      unfold Latest
      rw [same]
      exact h
  | some _ =>
      obtain ⟨id, row, commit, last⟩ := h
      exact ⟨id, row, commit, { last with found := same ▸ last.found, last := same ▸ last.last }⟩

/-- A row that is not a commit to the storage leaves its last commit. -/
theorem Latest.set (h : index.Latest storageId current) (written : next.operations = index.operations.set id new)
    (pending : ∀ old, index.operations.get? id = some old → old.record.commit = none)
    (other : new.record.storageId = storageId → new.record.commit = none) : next.Latest storageId current := by
  cases current with
  | none =>
      intro i row found storage
      rw [written, JsMap.get?_set] at found
      split at found
      · obtain rfl := Option.some.inj found
        exact other storage
      · exact h i row found storage
  | some _ =>
      obtain ⟨i, row, commit, last⟩ := h
      refine ⟨i, row, commit, { last with found := ?_, last := ?_ }⟩
      · have ne : i ≠ id := by
          rintro rfl
          have unfinished := pending row last.found
          rw [last.committed] at unfinished
          cases unfinished
        rw [written, JsMap.get?_set_of_ne ne]
        exact last.found
      · intro j row' earlier found storage committed ne
        rw [written, JsMap.get?_set] at found
        split at found
        · obtain rfl := Option.some.inj found
          rw [other storage] at committed
          cases committed
        · exact last.last found storage committed ne

/-- A commit with a new revision is the last one. -/
theorem Latest.commit (commit : Commit) (written : next.operations = index.operations.set id new)
    (storage_eq : new.record.storageId = storageId) (committed : new.record.commit = some commit)
    (later : ∀ i row earlier, index.operations.get? i = some row → row.record.commit = some earlier →
      earlier.committedStateRevision.val < commit.committedStateRevision.val) :
    next.Latest storageId (some commit.storageState) := by
  refine ⟨id, new, commit, ?_, storage_eq, committed, rfl, ?_⟩
  · rw [written, JsMap.get?_set_self]
  · intro i row earlier found _ before ne
    rw [written, JsMap.get?_set_of_ne ne] at found
    exact later i row earlier found before

end Latest

end OperationIndex

end PortableCodex.Authority
