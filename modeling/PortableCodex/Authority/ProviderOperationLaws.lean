import PortableCodex.Authority.ProviderOperations

/-!
What the calls of a provider tell about an operation, in the order in which they are answered.

A row that is written once is continued by every later one (`Continues`), so that each call keeps what was seen
(`Provider.Extends`). What was seen of an operation decides how it is answered from then on.
-/

namespace PortableCodex.Authority

open Js ProviderState HeadAnchor Traces

/-! ### Rows that continue -/

/-- The same operation, perhaps committed since. -/
def Continues (old new : Operation) : Prop :=
  new = old ∨ old.commit = none ∧ { new with commit := none } = old

theorem Continues.refl (operation : Operation) : Continues operation operation := .inl rfl

theorem Continues.trans {first second third : Operation} (h : Continues first second)
    (later : Continues second third) : Continues first third := by
  rcases h with rfl | ⟨pending, same⟩
  · exact later
  · rcases later with rfl | ⟨-, rfl⟩
    · exact .inr ⟨pending, same⟩
    · exact .inr ⟨pending, same⟩

theorem Continues.same {old new : Operation} (h : Continues old new) :
    new.operationId = old.operationId ∧ new.kind = old.kind ∧ new.storageId = old.storageId ∧
      new.request = old.request := by
  rcases h with rfl | ⟨-, rfl⟩
  · exact ⟨rfl, rfl, rfl, rfl⟩
  · exact ⟨rfl, rfl, rfl, rfl⟩

theorem Continues.committed {old new : Operation} (h : Continues old new) (committed : old.commit ≠ none) :
    new = old := by
  rcases h with same | ⟨pending, -⟩
  · exact same
  · exact absurd pending committed

theorem advanceOperations_continues {index : OperationIndex} {transition : Transition}
    {operations : JsMap OpaqueId OperationRow} (h : index.advanceOperations transition = some operations)
    {id : OpaqueId} {row : OperationRow} (found : index.operations.get? id = some row) :
    ∃ next, operations.get? id = some next ∧ Continues row.record next.record := by
  cases transition with
  | rotate =>
      obtain rfl := Option.some.inj h
      exact ⟨row, found, .refl _⟩
  | appendPrepared checksum record =>
      obtain ⟨fresh, rfl⟩ := advanceOperations_prepared h
      have other : id ≠ record.operationId := by
        rintro rfl
        rw [fresh] at found
        cases found
      exact ⟨row, (JsMap.get?_set_of_ne other).trans found, .refl _⟩
  | appendCommitted checksum record =>
      have written := advanceOperations_committed h
      simp only [OperationIndex.advanceOperations, OperationIndex.updateCommitted, Option.bind_eq_bind,
        Option.bind_eq_some_iff, ensure_eq_some_iff, exists_const] at h
      obtain ⟨_, -, _, -, prepared, -⟩ := h
      subst written
      rcases eq_or_ne id record.operationId with rfl | other
      · rw [prepared] at found
        obtain rfl := Option.some.inj found
        exact ⟨_, JsMap.get?_set_self, .inr ⟨rfl, rfl⟩⟩
      · exact ⟨row, (JsMap.get?_set_of_ne other).trans found, .refl _⟩

/-! ### What a call keeps -/

/-- The operation that an event is about. -/
def eventOperationId : DeltaEvent → OpaqueId
  | .prepared _ operationId _ _ _ => operationId
  | .committed _ operationId _ _ _ => operationId

namespace Provider

variable {provider next : Provider} {policy : RotationPolicy} {event : DeltaEvent}

/-- The authority has the operation, as the record or as one that continues it. -/
def Knows (provider : Provider) (record : Operation) : Prop :=
  ∃ row, provider.index.operations.get? record.operationId = some row ∧ Continues record row.record

/-- The authority has the record in a row. -/
def Has (provider : Provider) (record : Operation) : Prop :=
  ∃ row, provider.index.operations.get? record.operationId = some row ∧ row.record = record

theorem Has.knows {record : Operation} (h : provider.Has record) : provider.Knows record := by
  obtain ⟨row, found, same⟩ := h
  exact ⟨row, found, .inl same⟩

/-- A record that is there continues what is known of its operation. -/
theorem Knows.continues {old record : Operation} (h : provider.Knows old) (has : provider.Has record)
    (same : old.operationId = record.operationId) : Continues old record := by
  obtain ⟨row, found, continued⟩ := h
  obtain ⟨other, held, rfl⟩ := has
  rw [same, held] at found
  obtain rfl := Option.some.inj found
  exact continued

/-- The provider is in a run, and knows whatever the first one did. -/
structure Extends (provider next : Provider) : Prop where
  run : IndexedRun next.cache next.index
  keeps : ∀ record, provider.Knows record → next.Knows record

theorem Extends.refl (run : IndexedRun provider.cache provider.index) : provider.Extends provider :=
  ⟨run, fun _ => id⟩

theorem Extends.trans {middle : Provider} (h : provider.Extends middle) (later : middle.Extends next) :
    provider.Extends next := ⟨later.run, fun record known => later.keeps record (h.keeps record known)⟩

/-- An advance of the authority keeps what it knows. -/
theorem knows_advanced {expectedHead nextHead : LedgerHead} {transition : Transition} {cache : GenerationCache}
    {indexed : OperationIndex}
    (advanced : provider.index.compareAndAdvance expectedHead nextHead transition = some (some indexed))
    {record : Operation} (known : provider.Knows record) : Provider.Knows { cache, index := indexed } record := by
  obtain ⟨-, -, -, -, operations, written, rfl⟩ := compareAndAdvance_eq_some_iff.mp advanced
  obtain ⟨row, found, continued⟩ := known
  obtain ⟨later, held, further⟩ := advanceOperations_continues written found
  exact ⟨later, held, continued.trans further⟩

theorem rotate_spec (run : IndexedRun provider.cache provider.index) (h : provider.rotate = some next) :
    provider.Extends next := by
  simp only [rotate, Option.bind_eq_bind, Option.bind_eq_some_iff, Option.join_eq_some_iff, Option.some.injEq] at h
  obtain ⟨cache, rotates, indexed, advanced, rfl⟩ := h
  exact ⟨run.rotated rotates advanced, fun _ => knows_advanced advanced⟩

/-- An appended event leaves a record of its operation, in the state and in a row. -/
theorem appendEvent_spec (run : IndexedRun provider.cache provider.index)
    (h : provider.appendEvent event = some next) :
    provider.Extends next ∧ ∃ record, record.operationId = eventOperationId event ∧
      next.cache.state.operations.get? (eventOperationId event) = some record ∧ next.Has record := by
  simp only [appendEvent, Option.bind_eq_bind, Option.bind_eq_some_iff, Option.join_eq_some_iff,
    Option.some.injEq] at h
  obtain ⟨cache, appends, transition, proposes, indexed, advanced, rfl⟩ := h
  refine ⟨⟨run.appended appends proposes advanced, fun _ => knows_advanced advanced⟩, ?_⟩
  have inStep := run.inStep
  obtain ⟨encoded, record, encodes, applied, -, -⟩ := appendDeltaEvent_applied inStep.backed.loaded appends
  obtain rfl := Option.some.inj (proposes.symm.trans (read_then encodes (read_then applied rfl)))
  obtain ⟨sequence, stateRevision, frame⟩ := encodeDeltaEvent_eventFrame encodes
  obtain ⟨-, -, -, -, operations, written, rfl⟩ := compareAndAdvance_eq_some_iff.mp advanced
  have step := (applyDeltaFrame_eq_some_iff.mp applied).2
  have named : encoded.frame.operationId = eventOperationId event := by
    rw [frame]
    cases event <;> rfl
  rw [← named]
  clear frame named encodes applied appends proposes
  generalize encoded.frame = frame at step written advanced ⊢
  generalize cache.state = state at step ⊢
  cases step with
  | prepared accepted =>
      obtain ⟨-, rfl⟩ := advanceOperations_prepared written
      exact ⟨_, rfl, JsMap.get?_set_self, _, JsMap.get?_set_self, rfl⟩
  | committed accepted =>
      rename_i frame operation origin
      obtain rfl := advanceOperations_committed written
      have key : operation.operationId = frame.operationId :=
        inStep.backed.reached.invariant.keyed.operations accepted.found
      refine ⟨makeCommittedRecord operation frame, key, JsMap.get?_set_self, _, JsMap.get?_set_self, rfl⟩

theorem appended_spec (run : IndexedRun provider.cache provider.index) (event : DeltaEvent) :
    provider.Extends (provider.appended event).1 ∧ ((provider.appended event).2 = true → ∃ record,
      record.operationId = eventOperationId event ∧
      (provider.appended event).1.cache.state.operations.get? (eventOperationId event) = some record ∧
      (provider.appended event).1.Has record) := by
  unfold appended
  split
  · exact ⟨.refl run, Bool.false_ne_true.elim⟩
  · rename_i next appends
    obtain ⟨extended, shown⟩ := appendEvent_spec run appends
    exact ⟨extended, fun _ => shown⟩

theorem append_spec (run : IndexedRun provider.cache provider.index) (policy : RotationPolicy) (event : DeltaEvent) :
    provider.Extends (provider.append policy event).1 ∧ ((provider.append policy event).2 = true → ∃ record,
      record.operationId = eventOperationId event ∧
      (provider.append policy event).1.cache.state.operations.get? (eventOperationId event) = some record ∧
      (provider.append policy event).1.Has record) := by
  unfold append
  split
  · exact ⟨.refl run, Bool.false_ne_true.elim⟩
  · exact appended_spec run event
  · split
    · exact ⟨.refl run, Bool.false_ne_true.elim⟩
    · rename_i rotated rotates
      have first := rotate_spec run rotates
      obtain ⟨extended, shown⟩ := appended_spec first.run event
      exact ⟨first.trans extended, shown⟩

end Provider

/-! ### What a call answers -/

/-- The view in an answer. -/
def viewOf : ProviderAnswer → Option OperationView
  | .ok view => view
  | .error _ => none

namespace Provider

variable {provider : Provider} {policy : RotationPolicy}

theorem readOperation_eq (run : IndexedRun provider.cache provider.index) (operationId : OpaqueId) :
    provider.index.readOperation provider.cache.head operationId =
      some ((provider.index.operations.get? operationId).map OperationRow.record) :=
  run.inStep.readOperation operationId

/-- What holds of a call that has ended. -/
structure Answers (provider : Provider) (call : ProviderCall) (completed : ProviderAnswer × Provider) : Prop where
  extended : provider.Extends completed.2
  /-- A view is about the operation of the call, and what it shows is known from then on. -/
  shows : ∀ view ∈ viewOf completed.1, view.record.operationId = call.operationId ∧ completed.2.Has view.record
  /-- What was known before is continued by the view. -/
  continues : ∀ view ∈ viewOf completed.1, ∀ old, provider.Knows old → old.operationId = call.operationId →
    Continues old view.record
  /-- An operation that is to be dispatched was not known. -/
  dispatches : ∀ view ∈ viewOf completed.1, view.transient.any (·.shouldDispatch) = true →
    ∀ old, provider.Knows old → old.operationId ≠ call.operationId

variable {call : ProviderCall}

theorem Answers.refuse (run : IndexedRun provider.cache provider.index) (error : ProviderError) :
    Answers provider call (.error error, provider) where
  extended := .refl run
  shows := by rintro _ ⟨⟩
  continues := by rintro _ ⟨⟩
  dispatches := by rintro _ ⟨⟩

/-- The record of a row is replayed. -/
theorem Answers.replay (run : IndexedRun provider.cache provider.index) {existing : Operation}
    {transient : Option Transient}
    (found : (provider.index.operations.get? call.operationId).map OperationRow.record = some existing)
    (idle : transient.any (·.shouldDispatch) = false) :
    Answers provider call (provider.replay existing transient, provider) := by
  obtain ⟨row, held, rfl⟩ := Option.map_eq_some_iff.mp found
  have key : row.record.operationId = call.operationId := run.inStep.mirrors.keyed _ _ held
  have has : provider.Has row.record := ⟨row, key ▸ held, rfl⟩
  refine ⟨.refl run, ?_, ?_, ?_⟩
  · rintro view ⟨⟩
    exact ⟨key, has⟩
  · rintro view ⟨⟩ old known same
    exact known.continues has (same.trans key.symm)
  · rintro view ⟨⟩ dispatched
    exact absurd (idle.symm.trans dispatched) Bool.false_ne_true

theorem Answers.append (run : IndexedRun provider.cache provider.index) {event : DeltaEvent}
    {current : Option StorageState} {transient : Transient} (about : eventOperationId event = call.operationId)
    (fresh : transient.shouldDispatch = true → provider.index.operations.get? call.operationId = none) :
    Answers provider call (provider.appendAndView policy event call.operationId current transient) := by
  obtain ⟨extended, shown⟩ := append_spec run policy event
  unfold appendAndView
  generalize provider.append policy event = completed at extended shown ⊢
  obtain ⟨next, done⟩ := completed
  cases done with
  | false => exact ⟨extended, by rintro _ ⟨⟩, by rintro _ ⟨⟩, by rintro _ ⟨⟩⟩
  | true =>
      obtain ⟨record, named, found, known⟩ := shown rfl
      rw [about] at found named
      dsimp only at found known extended ⊢
      rw [found]
      refine ⟨extended, ?_, ?_, ?_⟩
      · rintro view ⟨⟩
        exact ⟨named, known⟩
      · rintro view ⟨⟩ old before same
        exact (extended.keeps old before).continues known (same.trans named.symm)
      · rintro view ⟨⟩ dispatched old ⟨row, held, -⟩ same
        rw [same, fresh dispatched] at held
        cases held

theorem prepareOperation_answers (run : IndexedRun provider.cache provider.index) (policy : RotationPolicy)
    (input : PrepareRequest) :
    Answers provider (.prepareOperation input) (provider.prepareOperation policy input) := by
  unfold prepareOperation
  rw [readOperation_eq run]
  cases found : (provider.index.operations.get? input.operationId).map OperationRow.record with
  | some existing =>
      dsimp only
      split
      · exact .replay run found rfl
      · exact .refuse run _
  | none =>
      dsimp only
      split
      · exact .refuse run _
      split
      · exact .refuse run _
      split
      · exact .refuse run _
      · exact .append run rfl fun _ => Option.map_eq_none_iff.mp found

theorem commitOperation_answers (run : IndexedRun provider.cache provider.index) (policy : RotationPolicy)
    (input : CommitRequest) :
    Answers provider (.commitOperation input) (provider.commitOperation policy input) := by
  unfold commitOperation
  rw [readOperation_eq run]
  cases found : (provider.index.operations.get? input.operationId).map OperationRow.record with
  | none => exact .refuse run _
  | some existing =>
      dsimp only
      split
      · exact .refuse run _
      split
      · exact .refuse run _
      split
      · exact .replay run found rfl
      split
      · exact .refuse run _
      split
      · exact .refuse run _
      · exact .append run rfl fun no => absurd no Bool.false_ne_true

theorem readOperation_answers (run : IndexedRun provider.cache provider.index) (input : ReadRequest) :
    Answers provider (.readOperation input) (provider.readOperation input) := by
  unfold readOperation
  rw [readOperation_eq run]
  cases found : (provider.index.operations.get? input.operationId).map OperationRow.record with
  | none => exact ⟨.refl run, by rintro _ ⟨⟩, by rintro _ ⟨⟩, by rintro _ ⟨⟩⟩
  | some record =>
      dsimp only
      split
      · exact .refuse run _
      · exact .replay run found rfl

theorem perform_answers (run : IndexedRun provider.cache provider.index) (policy : RotationPolicy)
    (call : ProviderCall) :
    Answers provider call (provider.perform policy call) := by
  cases call with
  | prepareOperation input => exact prepareOperation_answers run policy input
  | commitOperation input => exact commitOperation_answers run policy input
  | readOperation input => exact readOperation_answers run input

/-! ### Repeated calls -/

/-- What is known has a row, with a record that continues it. -/
theorem Knows.found (run : IndexedRun provider.cache provider.index) {old : Operation} (h : provider.Knows old) :
    ∃ record, provider.index.readOperation provider.cache.head old.operationId = some (some record) ∧
      Continues old record := by
  obtain ⟨row, found, continued⟩ := h
  exact ⟨row.record, by rw [readOperation_eq run, found]; rfl, continued⟩

/-- The request is the one of an operation. -/
def SameOperation (old : Operation) (input : PrepareRequest) : Prop :=
  old.kind = input.kind ∧ old.storageId = input.storageId ∧ old.request = input.request

/-- Preparing a known operation appends nothing. -/
theorem prepareOperation_known (run : IndexedRun provider.cache provider.index) (policy : RotationPolicy)
    {input : PrepareRequest} {old : Operation} (known : provider.Knows old) (same : old.operationId = input.operationId) :
    (provider.prepareOperation policy input).2 = provider ∧
      (SameOperation old input → ∃ view, (provider.prepareOperation policy input).1 = .ok (some view) ∧
        view.transient = some replayed) ∧
      (¬ SameOperation old input → (provider.prepareOperation policy input).1 = .error .operationConflict) := by
  obtain ⟨record, found, continued⟩ := known.found run
  obtain ⟨-, kind, storageId, request⟩ := continued.same
  unfold prepareOperation
  rw [← same, found]
  dsimp only
  rw [kind, storageId, request]
  by_cases repeated : old.kind = input.kind ∧ old.storageId = input.storageId ∧ old.request = input.request
  · rw [if_pos repeated]
    exact ⟨rfl, fun _ => ⟨_, rfl, rfl⟩, fun no => absurd repeated no⟩
  · rw [if_neg repeated]
    exact ⟨rfl, fun yes => absurd yes repeated, fun _ => rfl⟩

/-- Committing an operation that is known to be committed appends nothing, whatever the result is. -/
theorem commitOperation_known (run : IndexedRun provider.cache provider.index) (policy : RotationPolicy)
    {input : CommitRequest} {old : Operation} (known : provider.Knows old) (same : old.operationId = input.operationId)
    (committed : old.commit ≠ none) :
    (provider.commitOperation policy input).2 = provider ∧
      (old.request = input.request → ∃ view, (provider.commitOperation policy input).1 = .ok (some view) ∧
        view.record = old ∧ view.transient = some replayed) ∧
      (old.request ≠ input.request → (provider.commitOperation policy input).1 = .error .operationConflict) := by
  obtain ⟨record, found, continued⟩ := known.found run
  obtain rfl := continued.committed committed
  have held : provider.HoldsPrepared input.operationId record := fun pending => absurd pending committed
  unfold commitOperation
  rw [← same, found] at *
  dsimp only
  rw [if_neg (not_not_intro held)]
  by_cases repeated : record.request = input.request
  · rw [if_neg (not_not_intro repeated), if_pos committed]
    exact ⟨rfl, fun _ => ⟨_, rfl, rfl, rfl⟩, fun no => absurd repeated no⟩
  · rw [if_pos repeated]
    exact ⟨rfl, fun yes => absurd yes repeated, fun _ => rfl⟩

end Provider

end PortableCodex.Authority
