import PortableCodex.ProviderState.ReplayInvariant

/-!
The history of a version 2 state.

A version 2 state keeps all its operations, and its validator replays their prepares and commits in
the order of their revisions. `HasHistory` says that this replay leads back to the state. Frames
preserve it (`HasHistory.prepare`, `HasHistory.complete`), so every state that frames and rotations
lead to passes the validator (`HasHistory.validates`).
-/

open scoped List

namespace PortableCodex.ProviderState

open Js

/-! ### Replaying events -/

theorem replayEvents_append (index : Nat) (state : GenerationState) (first second : List CheckpointEvent) :
    replayEvents index state (first ++ second) =
      (replayEvents index state first).bind fun replayed =>
        replayEvents (index + first.length) replayed second := by
  induction first generalizing index state with
  | nil => rfl
  | cons event first ih =>
      simp only [List.cons_append, replayEvents, Option.bind_eq_bind, ih, Option.bind_assoc,
        List.length_cons]
      rw [Nat.add_right_comm, Nat.add_assoc]

/-- Only the prepared part of an operation is read when its prepare is replayed. -/
theorem replayEvent_congr {state : GenerationState} {event next : CheckpointEvent}
    (prepared : event.committed = false) (other : next.committed = false)
    (same : { event.operation with commit := none } = { next.operation with commit := none }) :
    replayEvent state event = replayEvent state next := by
  obtain ⟨⟨_, _, _, _, _, _, _, _⟩, _, _⟩ := event
  obtain ⟨⟨_, _, _, _, _, _, _, _⟩, _, _⟩ := next
  simp only [Operation.mk.injEq] at same
  obtain ⟨rfl, rfl, rfl, rfl, rfl, rfl, rfl, -⟩ := same
  cases prepared
  cases other
  rfl

theorem replayEvents_map {change : CheckpointEvent → CheckpointEvent} {index : Nat}
    {state : GenerationState} {events : List CheckpointEvent}
    (revision : ∀ event ∈ events, (change event).revision = event.revision)
    (same : ∀ event ∈ events, ∀ state, replayEvent state (change event) = replayEvent state event) :
    replayEvents index state (events.map change) = replayEvents index state events := by
  induction events generalizing index state with
  | nil => rfl
  | cons event events ih =>
      simp only [List.map_cons, replayEvents, revision event List.mem_cons_self,
        same event List.mem_cons_self]
      congr 1
      funext _
      congr 1
      funext replayed
      exact ih (fun event member => revision event (List.mem_cons_of_mem _ member))
        fun event member => same event (List.mem_cons_of_mem _ member)

/-! ### Collecting events -/

section Collecting

variable {stateRevision : Nat} {seen events : List CheckpointEvent}

theorem foldlM_collectEvent (within : ∀ event ∈ events, event.revision ≤ stateRevision)
    (distinct : ((seen ++ events).map (·.revision)).Nodup) :
    events.foldlM (collectEvent stateRevision) seen = some (seen ++ events) := by
  induction events generalizing seen with
  | nil => exact congrArg some (List.append_nil seen).symm
  | cons event events ih =>
      have fresh : event.revision ∉ seen.map (·.revision) := by
        rw [List.map_append, List.nodup_append] at distinct
        exact fun member => distinct.2.2 _ member _ (List.mem_map_of_mem List.mem_cons_self) rfl
      rw [List.foldlM_cons, collectEvent, ensure_pos ⟨within event List.mem_cons_self, fresh⟩]
      simp only [Option.bind_eq_bind, Option.bind_some]
      rw [ih (fun event member => within event (List.mem_cons_of_mem _ member))]
      · rw [List.append_assoc, List.singleton_append]
      · rwa [List.append_assoc, List.singleton_append]

/-- The prepare of an operation precedes its commit. -/
def Ordered (operation : Operation) : Prop :=
  ∀ commit ∈ operation.commit, operation.preparedStateRevision.val < commit.committedStateRevision.val

theorem foldlM_collectOperation {operations : List Operation}
    (ordered : ∀ operation ∈ operations, Ordered operation)
    (within : ∀ event ∈ operations.flatMap operationEvents, event.revision ≤ stateRevision)
    (distinct : ((seen ++ operations.flatMap operationEvents).map (·.revision)).Nodup) :
    operations.foldlM (collectOperation stateRevision) seen =
      some (seen ++ operations.flatMap operationEvents) := by
  induction operations generalizing seen with
  | nil => exact congrArg some (List.append_nil seen).symm
  | cons operation operations ih =>
      rw [List.flatMap_cons] at within distinct ⊢
      rw [← List.append_assoc] at distinct ⊢
      have here : ((seen ++ operationEvents operation).map (·.revision)).Nodup := by
        rw [List.map_append] at distinct
        exact distinct.of_append_left
      have first : ∀ commit ∈ operation.commit,
          operation.preparedStateRevision.val < commit.committedStateRevision.val :=
        ordered operation List.mem_cons_self
      rw [List.foldlM_cons, collectOperation, ensure_pos first]
      simp only [Option.bind_eq_bind, Option.bind_some]
      rw [foldlM_collectEvent (fun event member => within event (List.mem_append_left _ member)) here]
      exact ih (fun operation member => ordered operation (List.mem_cons_of_mem _ member))
        (fun event member => within event (List.mem_append_right _ member)) distinct

end Collecting

/-- Events whose revisions ascend are what sorting their elements gives. -/
theorem sortEvents_eq_of_perm {events sorted : List CheckpointEvent} (perm : events ~ sorted)
    (ascending : sorted.Pairwise fun a b => a.revision < b.revision) : sortEvents events = sorted := by
  let ordered (a b : CheckpointEvent) : Prop := a.revision ≤ b.revision
  have : Std.Total ordered := ⟨fun a b => le_total a.revision b.revision⟩
  have : IsTrans CheckpointEvent ordered := ⟨fun a b c => le_trans⟩
  have sorts : (sortEvents events).Pairwise ordered := List.pairwise_insertionSort ordered events
  have same : sortEvents events ~ sorted := (List.perm_insertionSort _ events).trans perm
  -- equal revisions belong to one event
  have unique : ∀ a ∈ sorted, ∀ b ∈ sorted, a.revision = b.revision → a = b := by
    have nodup : (sorted.map (·.revision)).Nodup := List.pairwise_map.mpr (ascending.imp Nat.ne_of_lt)
    exact fun a inside b member => List.inj_on_of_nodup_map nodup inside member
  exact same.eq_of_pairwise (fun a b first second le ge =>
    unique a (same.mem_iff.mp first) b second (Nat.le_antisymm le ge)) sorts (ascending.imp Nat.le_of_lt)

/-! ### Histories -/

/-- The operations of a state, replayed in the order of their revisions, lead back to it. -/
structure History (state : GenerationState) (events : List CheckpointEvent) (replayed : GenerationState) :
    Prop where
  perm : events ~ state.operations.values.flatMap operationEvents
  revisions : events.map (·.revision) = List.range' 1 state.stateRevision.val
  replays : replayEvents 0 (emptyGenerationState ⟨0, by decide⟩ .v2) events = some replayed
  operations : ∀ id, replayed.operations.get? id = state.operations.get? id
  storages : ∀ id, replayed.storages.get? id = state.storages.get? id
  origins : ∀ id, replayed.attachmentOrigins.get? id = state.attachmentOrigins.get? id
  ordered : ∀ operation ∈ state.operations.values, Ordered operation

def HasHistory (state : GenerationState) : Prop := ∃ events replayed, History state events replayed

theorem hasHistory_empty (version : Version) : HasHistory (emptyGenerationState ⟨0, by decide⟩ version) :=
  ⟨[], _, .refl _, rfl, rfl, fun _ => rfl, fun _ => rfl, fun _ => rfl, by rintro _ ⟨⟩⟩

theorem JsMap.values_perm {K V : Type} [DecidableEq K] {m n : JsMap K V}
    (same : ∀ key, m.get? key = n.get? key) : m.values ~ n.values :=
  (JsMap.entries_perm same).map Prod.snd

section Histories

variable {state next : GenerationState}

/-- A history depends on the lookups of a state only. -/
theorem HasHistory.of_lookups (h : HasHistory state)
    (operations : ∀ id, next.operations.get? id = state.operations.get? id)
    (storages : ∀ id, next.storages.get? id = state.storages.get? id)
    (origins : ∀ id, next.attachmentOrigins.get? id = state.attachmentOrigins.get? id)
    (stateRevision : next.stateRevision = state.stateRevision) : HasHistory next := by
  obtain ⟨events, replayed, history⟩ := h
  have values := JsMap.values_perm operations
  refine ⟨events, replayed, history.perm.trans (values.symm.flatMap_right _), ?_, history.replays, ?_, ?_,
    ?_, ?_⟩
  · rw [stateRevision]
    exact history.revisions
  · exact fun id => (history.operations id).trans (operations id).symm
  · exact fun id => (history.storages id).trans (storages id).symm
  · exact fun id => (history.origins id).trans (origins id).symm
  · exact fun operation member => history.ordered operation (values.mem_iff.mp member)

theorem range'_succ_revision {events : List CheckpointEvent} {n : Nat}
    (revisions : events.map (·.revision) = List.range' 1 n) (event : CheckpointEvent)
    (last : event.revision = n + 1) : (events ++ [event]).map (·.revision) = List.range' 1 (n + 1) := by
  rw [List.map_append, revisions, List.range'_1_concat, List.map_singleton, last, Nat.add_comm]

theorem pendingOperationForStorage_congr {storageId : OpaqueId}
    (operations : ∀ id, next.operations.get? id = state.operations.get? id) :
    pendingOperationForStorage next storageId = none ↔
      pendingOperationForStorage state storageId = none := by
  simp only [pendingOperationForStorage_eq_none, operations]

theorem HasHistory.prepare (h : HasHistory state) {frame : PreparedFrame} (accepted : Prepares state frame)
    (revision : (revisionOf frame.stateRevision).val = state.stateRevision.val + 1) (checksum : Checksum) :
    HasHistory (state.prepare frame checksum) := by
  obtain ⟨events, replayed, history⟩ := h
  let record := makePreparedRecord frame checksum
  let event : CheckpointEvent := { operation := record, revision := frame.stateRevision.val, committed := false }
  have values : (state.prepare frame checksum).operations.values = state.operations.values ++ [record] := by
    show List.map _ (state.operations.set _ _).entries = _
    rw [JsMap.set_entries_of_fresh accepted.fresh, List.map_append]
    rfl
  have idle : pendingOperationForStorage replayed frame.storageId = none :=
    (pendingOperationForStorage_congr history.operations).mpr
      (pendingOperationForStorage_eq_none.mpr accepted.idle)
  have replays : replayEvent replayed event =
      some { replayed with operations := replayed.operations.set frame.operationId record } := by
    have allowed : assertPreparePrecondition record.storageStateBefore record.kind := accepted.allowed
    show replayPrepared replayed record = _
    rw [replayPrepared, ensure_pos, ensure_pos allowed]
    · rfl
    · exact ⟨JsMap.has_eq_false.mpr ((history.operations _).trans accepted.fresh), idle,
        (history.storages _).trans accepted.current⟩
  have length : events.length = state.stateRevision.val := by
    rw [← List.length_map (f := (·.revision)), history.revisions, List.length_range']
  refine ⟨events ++ [event], { replayed with
    operations := replayed.operations.set frame.operationId record }, ?_, ?_, ?_, ?_, history.storages,
    history.origins, ?_⟩
  · rw [values, List.flatMap_append]
    exact history.perm.append (.refl _)
  · show List.map _ _ = List.range' 1 (revisionOf frame.stateRevision).val
    rw [revision]
    exact range'_succ_revision history.revisions event revision
  · have counts : event.revision = 0 + events.length + 1 := by
      rw [length, Nat.zero_add]
      exact revision
    rw [replayEvents_append, history.replays, Option.bind_some, replayEvents, ensure_pos counts]
    simp only [Option.bind_eq_bind, Option.bind_some, replays, replayEvents]
  · intro id
    show (replayed.operations.set _ _).get? id = (state.operations.set _ _).get? id
    rw [JsMap.get?_set, JsMap.get?_set, history.operations]
  · intro operation member
    rw [values, List.mem_append, List.mem_singleton] at member
    rcases member with member | rfl
    · exact history.ordered operation member
    · rintro _ ⟨⟩

theorem Invariant.operationIds (h : Invariant state) :
    state.operations.values.map (·.operationId) = state.operations.keys := by
  rw [JsMap.values, JsMap.keys, List.map_map]
  exact List.map_congr_left fun entry inside => h.keyed.operations (JsMap.mem_entries.mp inside)

theorem Invariant.mem_values (h : Invariant state) {operation : Operation} :
    operation ∈ state.operations.values ↔ state.operations.get? operation.operationId = some operation := by
  rw [JsMap.mem_values]
  constructor
  · rintro ⟨id, found⟩
    rw [h.keyed.operations found]
    exact found
  · exact fun found => ⟨_, found⟩

theorem Invariant.set_values (h : Invariant state) {operation record : Operation} {id : OpaqueId}
    (found : state.operations.get? id = some operation) :
    (state.operations.set id record).values =
      state.operations.values.map fun other => if other.operationId = id then record else other := by
  have present : id ∈ state.operations.entries.map Prod.fst := JsMap.mem_keys.mpr ⟨_, found⟩
  show List.map _ (JsMap.setEntries _ _ _) = _
  rw [JsMap.setEntries, if_pos present, JsMap.values, List.map_map, List.map_map]
  refine List.map_congr_left fun entry inside => ?_
  simp only [Function.comp_apply, h.keyed.operations (JsMap.mem_entries.mp inside)]
  split <;> rfl

/-- The events of the operation of a commit carry its record afterwards. -/
def recordCommit (record : Operation) (event : CheckpointEvent) : CheckpointEvent :=
  if event.operation.operationId = record.operationId then { event with operation := record } else event

theorem mem_operationEvents {operation : Operation} {event : CheckpointEvent}
    (h : event ∈ operationEvents operation) : event.operation = operation := by
  unfold operationEvents at h
  rcases List.mem_cons.mp h with rfl | h
  · rfl
  · cases commit : operation.commit with
    | none => rw [commit] at h; cases h
    | some _ =>
        rw [commit] at h
        obtain rfl := List.mem_singleton.mp h
        rfl

theorem operationEvents_pending {operation : Operation} (pending : operation.commit = none) :
    operationEvents operation =
      [{ operation, revision := operation.preparedStateRevision.val, committed := false }] := by
  rw [operationEvents, pending]

/-- A commit changes the record of its operation and adds an event. -/
theorem flatMap_operationEvents_commit {operations : List Operation} {frame : CommittedFrame}
    {operation : Operation} (distinct : (operations.map (·.operationId)).Nodup) (inside : operation ∈ operations)
    (pending : operation.commit = none) :
    (operations.map fun other => if other.operationId = operation.operationId
        then makeCommittedRecord operation frame else other).flatMap operationEvents ~
      (operations.flatMap operationEvents).map (recordCommit (makeCommittedRecord operation frame)) ++
        [{ operation := makeCommittedRecord operation frame, revision := frame.stateRevision.val,
           committed := true }] := by
  obtain ⟨before, after, rfl⟩ := List.append_of_mem inside
  have others : ∀ other ∈ before ++ after, other.operationId ≠ operation.operationId := by
    rw [List.map_append, List.map_cons, List.nodup_middle, List.nodup_cons, ← List.map_append] at distinct
    exact fun other member same => distinct.1 (same ▸ List.mem_map_of_mem member)
  have kept {part : List Operation} (sub : ∀ other ∈ part, other ∈ before ++ after) :
      (part.map fun other => if other.operationId = operation.operationId
        then makeCommittedRecord operation frame else other) = part := by
    rw [List.map_congr_left fun other member => if_neg (others other (sub other member)), List.map_id']
  have same {part : List Operation} (sub : ∀ other ∈ part, other ∈ before ++ after) :
      (part.flatMap operationEvents).map (recordCommit (makeCommittedRecord operation frame)) =
        part.flatMap operationEvents := by
    rw [List.map_congr_left, List.map_id']
    intro event member
    obtain ⟨other, inside, of⟩ := List.mem_flatMap.mp member
    rw [recordCommit, if_neg]
    rw [mem_operationEvents of]
    exact others other (sub other inside)
  have recorded : recordCommit (makeCommittedRecord operation frame)
      { operation, revision := operation.preparedStateRevision.val, committed := false } =
      { operation := makeCommittedRecord operation frame
        revision := operation.preparedStateRevision.val
        committed := false } := if_pos rfl
  have first : ∀ other ∈ before, other ∈ before ++ after := fun _ => List.mem_append_left _
  have last : ∀ other ∈ after, other ∈ before ++ after := fun _ => List.mem_append_right _
  rw [List.map_append, List.map_cons, kept first, kept last, if_pos rfl, List.flatMap_append,
    List.flatMap_cons, List.flatMap_append, List.flatMap_cons, List.map_append, List.map_append, same first,
    same last, operationEvents_pending pending, List.map_singleton, recorded, List.append_assoc]
  refine List.Perm.append_left _ (List.Perm.cons _ ?_)
  exact (List.perm_append_singleton _ _).symm

theorem committedAttachmentOrigin_congr {operation record : Operation} {storage : StorageState}
    (origins : ∀ id, next.attachmentOrigins.get? id = state.attachmentOrigins.get? id)
    (kind : record.kind = operation.kind) (id : record.operationId = operation.operationId)
    (storageId : record.storageId = operation.storageId) :
    committedAttachmentOrigin next record storage = committedAttachmentOrigin state operation storage := by
  unfold committedAttachmentOrigin
  rw [kind, id, storageId, origins]

theorem HasHistory.complete (h : HasHistory state) (invariant : Invariant state) {frame : CommittedFrame}
    {operation : Operation} {origin : Option OpaqueId} (accepted : Commits state frame operation origin)
    (revision : (revisionOf frame.stateRevision).val = state.stateRevision.val + 1) :
    HasHistory (state.complete frame operation origin) := by
  obtain ⟨events, replayed, history⟩ := h
  let record := makeCommittedRecord operation frame
  let event : CheckpointEvent := { operation := record, revision := frame.stateRevision.val, committed := true }
  have key := invariant.keyed.operations accepted.found
  have member : operation ∈ state.operations.values := JsMap.mem_values.mpr ⟨_, accepted.found⟩
  have values : (state.complete frame operation origin).operations.values =
      state.operations.values.map fun other => if other.operationId = operation.operationId
        then record else other := by
    rw [key]
    exact invariant.set_values accepted.found
  have distinct : (state.operations.values.map (·.operationId)).Nodup := by
    rw [invariant.operationIds]
    exact state.operations.nodup
  -- the only event of the operation so far is its prepare
  have prepares : ∀ earlier ∈ events, ∀ s, replayEvent s (recordCommit record earlier) = replayEvent s earlier := by
    intro earlier inside s
    unfold recordCommit
    split
    · rename_i same
      obtain ⟨other, found, of⟩ := List.mem_flatMap.mp (history.perm.mem_iff.mp inside)
      have operation_eq : other = operation := by
        rw [mem_operationEvents of] at same
        exact List.inj_on_of_nodup_map distinct found member same
      rw [operation_eq, operationEvents_pending accepted.pending, List.mem_singleton] at of
      subst of
      exact replayEvent_congr rfl rfl rfl
    · rfl
  have revisions : ∀ earlier ∈ events, (recordCommit record earlier).revision = earlier.revision := by
    intro earlier _
    unfold recordCommit
    split <;> rfl
  have length : events.length = state.stateRevision.val := by
    rw [← List.length_map (f := (·.revision)), history.revisions, List.length_range']
  have replays : replayEvent replayed event = some { replayed with
      operations := replayed.operations.set operation.operationId record
      storages := replayed.storages.set operation.storageId frame.storageState
      attachmentOrigins := replayed.attachmentOrigins.set operation.storageId origin } := by
    have prepared : replayed.operations.get? record.operationId = some operation := by
      rw [history.operations]
      exact key ▸ accepted.found
    have transition : assertStorageTransition record.storageStateBefore frame.storageState record.kind :=
      accepted.transition
    have origin_eq : committedAttachmentOrigin replayed record frame.storageState = some origin :=
      (committedAttachmentOrigin_congr history.origins rfl rfl rfl).trans accepted.origin_eq
    show replayCommitted replayed record = _
    rw [replayCommitted, prepared]
    simp only [Option.bind_eq_bind, Option.bind_some]
    show (ensure _).bind _ = _
    rw [ensure_pos, Option.bind_some, ensure_pos transition, Option.bind_some]
    · show Option.bind (committedAttachmentOrigin replayed record frame.storageState) _ = _
      rw [origin_eq]
      rfl
    · exact ⟨accepted.pending, rfl, rfl, rfl, rfl, rfl, rfl,
        (history.storages _).trans accepted.current, accepted.expected, accepted.sameStorage⟩
  refine ⟨events.map (recordCommit record) ++ [event], { replayed with
    operations := replayed.operations.set operation.operationId record
    storages := replayed.storages.set operation.storageId frame.storageState
    attachmentOrigins := replayed.attachmentOrigins.set operation.storageId origin }, ?_, ?_, ?_, ?_, ?_, ?_,
    ?_⟩
  · rw [values]
    refine ((history.perm.map _).append_right _).trans ?_
    exact (flatMap_operationEvents_commit distinct member accepted.pending).symm
  · show List.map _ _ = List.range' 1 (revisionOf frame.stateRevision).val
    rw [revision]
    refine range'_succ_revision ?_ event revision
    rw [← history.revisions, List.map_map]
    exact List.map_congr_left revisions
  · have counts : event.revision = 0 + (events.map (recordCommit record)).length + 1 := by
      rw [List.length_map, length, Nat.zero_add]
      exact revision
    rw [replayEvents_append, replayEvents_map revisions prepares, history.replays, Option.bind_some, replayEvents,
      ensure_pos counts]
    simp only [Option.bind_eq_bind, Option.bind_some, replays, replayEvents]
  · intro id
    show (replayed.operations.set _ _).get? id = (state.operations.set _ _).get? id
    rw [JsMap.get?_set, JsMap.get?_set, history.operations, key]
  · intro id
    show (replayed.storages.set _ _).get? id = (state.storages.set _ _).get? id
    rw [JsMap.get?_set, JsMap.get?_set, history.storages]
  · intro id
    show (replayed.attachmentOrigins.set _ _).get? id = (state.attachmentOrigins.set _ _).get? id
    rw [JsMap.get?_set, JsMap.get?_set, history.origins]
  · intro other inside
    rw [values, List.mem_map] at inside
    obtain ⟨earlier, found, rfl⟩ := inside
    split
    · rintro _ ⟨⟩
      have before := invariant.revision ⟨accepted.found, accepted.pending⟩
      show operation.preparedStateRevision.val < (revisionOf frame.stateRevision).val
      omega
    · exact history.ordered earlier found

/-- The validator accepts the operations and storages of a state with a history, in any order, and
finds its origins. -/
theorem HasHistory.validates (h : HasHistory state) {loaded : GenerationState}
    (operations : ∀ id, loaded.operations.get? id = state.operations.get? id)
    (storages : ∀ id, loaded.storages.get? id = state.storages.get? id)
    (stateRevision : loaded.stateRevision = state.stateRevision) :
    ∃ result, validateV2CheckpointState loaded = some result ∧
      ∀ id, result.attachmentOrigins.get? id = state.attachmentOrigins.get? id := by
  obtain ⟨events, replayed, history⟩ := h
  have values := JsMap.values_perm operations
  have perm : loaded.operations.values.flatMap operationEvents ~ events :=
    (values.flatMap_right _).trans history.perm.symm
  have ascending : events.Pairwise fun a b => a.revision < b.revision := by
    have sorted : (events.map (·.revision)).Pairwise (· < ·) := by
      rw [history.revisions]
      exact List.pairwise_lt_range'
    exact List.pairwise_map.mp sorted
  have collected : loaded.operations.values.foldlM (collectOperation loaded.stateRevision.val) [] =
      some (loaded.operations.values.flatMap operationEvents) := by
    refine @foldlM_collectOperation _ [] _ ?_ ?_ ?_
    · exact fun operation member => history.ordered operation (values.mem_iff.mp member)
    · intro event member
      have inside := List.mem_map_of_mem (f := (·.revision)) (perm.mem_iff.mp member)
      rw [history.revisions, List.mem_range'_1] at inside
      rw [stateRevision]
      omega
    · rw [List.nil_append, (perm.map _).nodup_iff, history.revisions]
      exact List.nodup_range'
  have length : (loaded.operations.values.flatMap operationEvents).length = loaded.stateRevision.val := by
    rw [perm.length_eq, stateRevision, ← List.length_map (f := (·.revision)), history.revisions,
      List.length_range']
  have sorted := sortEvents_eq_of_perm perm ascending
  have sameOperations (id : OpaqueId) : replayed.operations.get? id = loaded.operations.get? id :=
    (history.operations id).trans (operations id).symm
  have sameStorages (id : OpaqueId) : replayed.storages.get? id = loaded.storages.get? id :=
    (history.storages id).trans (storages id).symm
  refine ⟨{ loaded with attachmentOrigins := replayed.attachmentOrigins }, ?_, history.origins⟩
  rw [validateV2CheckpointState, collected]
  simp only [Option.bind_eq_bind, Option.bind_some]
  rw [ensure_pos length, Option.bind_some, sorted, history.replays, Option.bind_some, ensure_pos, Option.bind_some,
    ensure_pos, Option.bind_some, ensure_pos, Option.bind_some]
  · exact fun entry member => (sameStorages _).trans (JsMap.mem_entries.mp member)
  · exact fun entry member => (sameOperations _).trans (JsMap.mem_entries.mp member)
  · exact ⟨JsMap.size_eq sameOperations, JsMap.size_eq sameStorages⟩

end Histories

end PortableCodex.ProviderState
