import PortableCodex.Authority.ProviderOperationLaws

/-!
What a call of a provider can fail with.

The rows of the authority and the state of the provider agree on every operation, so that an append which the state
accepts is written by both (`Provider.append_isSome`). As long as no counter ends, a call is refused for a conflict
of its own, and for nothing else.
-/

namespace PortableCodex.Authority

open Js ProviderState HeadAnchor

/-! ### Operations and rows -/

section Covered

variable {cache : GenerationCache} {index : OperationIndex}

/-- An operation that the provider holds has a row. -/
theorem IndexedRun.covered (run : IndexedRun cache index) : ∀ id operation,
    cache.state.operations.get? id = some operation → ∃ row, index.operations.get? id = some row := by
  induction run with
  | genesis => rintro _ _ ⟨⟩
  | @appended cache index event transition next indexed run appends proposes advanced ih =>
      have inStep := run.inStep
      obtain ⟨checksum, frame, record, step, -, -, proposal⟩ := appendTransition_eq inStep.backed.loaded appends
      obtain rfl := Option.some.inj (proposal.symm.trans proposes)
      obtain ⟨-, -, -, -, operations, written, rfl⟩ := compareAndAdvance_eq_some_iff.mp advanced
      have kept {key : OpaqueId} {new : Operation} {row : OperationRow} (id : OpaqueId) (operation : Operation)
          (found : (cache.state.operations.set key new).get? id = some operation) :
          ∃ other, (index.operations.set key row).get? id = some other := by
        rw [JsMap.get?_set] at found ⊢
        split
        · exact ⟨row, rfl⟩
        · rename_i other
          rw [if_neg other] at found
          exact ih id operation found
      generalize next.state = state at step ⊢
      cases step with
      | prepared accepted =>
          obtain ⟨-, rfl⟩ := advanceOperations_prepared written
          exact kept
      | committed accepted =>
          rename_i frame operation origin
          obtain rfl := advanceOperations_committed written
          have key : operation.operationId = frame.operationId :=
            inStep.backed.reached.invariant.keyed.operations accepted.found
          show ∀ id other, _ → ∃ row, (index.operations.set operation.operationId _).get? id = some row
          rw [key]
          exact kept
  | rotated run rotates advanced ih =>
      obtain ⟨-, -, -, -, operations, written, rfl⟩ := compareAndAdvance_eq_some_iff.mp advanced
      obtain rfl := Option.some.inj written
      have backed := run.inStep.backed
      obtain ⟨result, rotated, same⟩ := Option.bind_eq_some_iff.mp rotates
      obtain rfl := Option.some.inj same
      obtain ⟨snapshot, facts⟩ := rotation_eq_some backed.reached.invariant.keyed backed.anchors rotated
      intro id operation found
      exact ih id operation ((facts.operations backed.reached.invariant.keyed).mp found).1

end Covered

/-! ### Events that a state accepts -/

/-- What `prepareOperation` and `commitOperation` have checked of an event. -/
def Acceptable (state : GenerationState) : DeltaEvent → Prop
  | .prepared kind operationId _ storageId storageStateBefore =>
      state.operations.get? operationId = none ∧ pendingOperationForStorage state storageId = none ∧
        state.storages.get? storageId = storageStateBefore ∧ assertPreparePrecondition storageStateBefore kind
  | .committed expectedStorage operationId preparedChecksum _ storageState =>
      ∃ operation, Pending state operationId operation ∧ preparedChecksum = some operation.preparedChecksum ∧
        state.storages.get? operation.storageId = operation.storageStateBefore ∧
        expectedStorage = expectedStorageState operation.storageStateBefore ∧
        storageState.storageId = operation.storageId ∧
        assertStorageTransition operation.storageStateBefore storageState operation.kind

theorem committedAttachmentOrigin_isSome (state : GenerationState) {operation : Operation} {next : StorageState}
    (transition : assertStorageTransition operation.storageStateBefore next operation.kind) :
    ∃ origin, committedAttachmentOrigin state operation next = some origin := by
  unfold committedAttachmentOrigin
  generalize operation.kind = kind at transition
  generalize operation.storageStateBefore = before at transition
  cases kind with
  | attach => exact ⟨_, rfl⟩
  | restoreAttach => exact ⟨_, rfl⟩
  | checkpoint => exact ⟨_, rfl⟩
  | restore => exact ⟨_, rfl⟩
  | provision =>
      cases before with
      | none =>
          obtain ⟨-, lifecycle, -⟩ := transition
          exact ⟨_, read_then (ensure_pos (by rw [lifecycle]; decide)) rfl⟩
      | some previous => exact transition.elim
  | detach =>
      cases before with
      | none => exact absurd transition.1 (by decide)
      | some previous =>
          obtain ⟨-, -, lifecycle, -⟩ := transition
          exact ⟨_, read_then (ensure_pos (by rw [lifecycle]; decide)) rfl⟩
  | destroy =>
      cases before with
      | none => exact absurd transition.1 (by decide)
      | some previous =>
          obtain ⟨-, -, lifecycle, -⟩ := transition
          exact ⟨_, read_then (ensure_pos (by rw [lifecycle]; decide)) rfl⟩

section Acceptable

variable {state : GenerationState} {event : DeltaEvent}

theorem Acceptable.applied (h : Acceptable state event) (version : Version) (previous : Option Checksum)
    (sequence : Sequence) (revision : PositiveUint64) (checksum : Checksum) :
    ∃ record next, Applied state checksum (event.frame version previous sequence revision) record next := by
  cases event with
  | prepared kind operationId request storageId storageStateBefore =>
      obtain ⟨fresh, idle, current, allowed⟩ := h
      exact ⟨_, _, .prepared ⟨fresh, pendingOperationForStorage_eq_none.mp idle, current, allowed⟩⟩
  | committed expectedStorage operationId preparedChecksum result storageState =>
      obtain ⟨operation, pending, same, current, expected, sameStorage, transition⟩ := h
      obtain ⟨origin, origin_eq⟩ := committedAttachmentOrigin_isSome state transition
      exact ⟨_, _, .committed ⟨pending.1, pending.2, same, current, expected, sameStorage, transition, origin_eq⟩⟩

/-- A rotation keeps what is pending and the storages. -/
theorem Acceptable.rotated (h : Acceptable state event) {expectedHead : LedgerHead} {snapshot : CheckpointArrays}
    {result : Rotation} (rotates : Rotates expectedHead state snapshot result) (keyed : ProviderState.Keyed state) :
    Acceptable result.state event := by
  cases event with
  | prepared kind operationId request storageId storageStateBefore =>
      obtain ⟨fresh, idle, current, allowed⟩ := h
      refine ⟨?_, pendingOperationForStorage_eq_none.mpr ?_, (rotates.storages keyed _).trans current, allowed⟩
      · cases held : result.state.operations.get? operationId with
        | none => rfl
        | some operation =>
            rw [((rotates.operations keyed).mp held).1] at fresh
            cases fresh
      · intro id operation found pending
        exact pendingOperationForStorage_eq_none.mp idle id operation ((rotates.operations keyed).mp found).1 pending
  | committed expectedStorage operationId preparedChecksum result storageState =>
      obtain ⟨operation, pending, same, current, rest⟩ := h
      exact ⟨operation, (rotates.pending keyed).mpr pending, same, (rotates.storages keyed _).trans current, rest⟩

end Acceptable

/-! ### Appends that are written -/

namespace Provider

variable {provider : Provider} {policy : RotationPolicy} {event : DeltaEvent}

/-- No other operation has the id of an event that prepares one. -/
def Unwritten (provider : Provider) : DeltaEvent → Prop
  | .prepared _ operationId _ _ _ => provider.index.operations.get? operationId = none
  | .committed _ _ _ _ _ => True

/-- No counter of the provider ends, neither now nor behind a rotation. -/
structure HasRoom (provider : Provider) : Prop where
  now : ¬ Exhausted provider.cache
  rotated : provider.cache.head.frameCount.val ≠ 0 → ∀ next, rotateGeneration provider.cache = some next →
    ¬ Exhausted next

theorem appendEvent_isSome (inStep : InStep provider.cache provider.index) (room : Appendable provider.cache event)
    (acceptable : Acceptable provider.cache.state event) (unwritten : provider.Unwritten event) :
    ∃ next, provider.appendEvent event = some next := by
  obtain ⟨encoded, nextHead, encodes, -, -, -, appends⟩ := room
  obtain ⟨sequence, stateRevision, frame⟩ := encodeDeltaEvent_eventFrame encodes
  obtain ⟨record, state, step⟩ := acceptable.applied provider.cache.head.contractVersion
    provider.cache.head.lastChecksum sequence stateRevision encoded.checksum
  rw [← frame] at step
  have applied := applyDeltaFrame_eq_some_iff.mpr ⟨inStep.follows encodes, step⟩
  have written := appends record state applied
  obtain ⟨transition, proposes, taken⟩ := inStep.accepts written
  obtain rfl := Option.some.inj (proposes.symm.trans (read_then encodes (read_then applied rfl)))
  have fresh : (Transition.ofFrame encoded.checksum record encoded.frame).Fresh provider.index := by
    generalize encoded.frame = made at frame step
    subst frame
    cases event with
    | committed => exact True.intro
    | prepared =>
        cases step
        exact unwritten
  obtain ⟨indexed, advanced⟩ := taken.mpr fresh
  exact ⟨_, read_then written (read_then proposes (read_then (congrArg Option.join advanced) rfl))⟩

theorem appended_isSome (inStep : InStep provider.cache provider.index) (room : Appendable provider.cache event)
    (acceptable : Acceptable provider.cache.state event) (unwritten : provider.Unwritten event) :
    (provider.appended event).2 = true := by
  obtain ⟨next, appends⟩ := appendEvent_isSome inStep room acceptable unwritten
  unfold appended
  rw [appends]

/-- An event that the state accepts is appended, behind a rotation where the policy asks for one. -/
theorem append_isSome (inStep : InStep provider.cache provider.index) (policy : RotationPolicy)
    (room : provider.HasRoom) (acceptable : Acceptable provider.cache.state event) (unwritten : provider.Unwritten event) :
    (provider.append policy event).2 = true := by
  obtain ⟨rotates, active, first, reached, -, appendable⟩ :=
    @Backed.closure provider.cache event policy inStep.backed room.now
  unfold append
  rw [first]
  cases rotates with
  | false =>
      rw [if_neg Bool.false_ne_true] at reached
      subst reached
      exact appended_isSome inStep (appendable room.now) acceptable unwritten
  | true =>
      rw [if_pos rfl] at reached
      have frames := rotatesFirst_hasFrames first
      obtain ⟨indexed, advanced⟩ := inStep.acceptsRotation frames reached
      have rotated : provider.rotate = some { cache := active, index := indexed } :=
        read_then reached (read_then (congrArg Option.join advanced) rfl)
      have after := inStep.rotated reached advanced
      obtain ⟨-, -, -, -, operations, written, rfl⟩ := compareAndAdvance_eq_some_iff.mp advanced
      obtain rfl := Option.some.inj written
      obtain ⟨result, made, same⟩ := Option.bind_eq_some_iff.mp reached
      obtain ⟨snapshot, facts⟩ :=
        rotation_eq_some inStep.backed.reached.invariant.keyed inStep.backed.anchors made
      rw [rotated]
      refine appended_isSome after (appendable (room.rotated frames active reached)) ?_ ?_
      · obtain rfl := Option.some.inj same
        exact acceptable.rotated facts inStep.backed.reached.invariant.keyed
      · cases event <;> exact unwritten

/-! ### Calls that are answered -/

theorem appendAndView_ok (run : IndexedRun provider.cache provider.index) (policy : RotationPolicy)
    (room : provider.HasRoom)
    (acceptable : Acceptable provider.cache.state event) (unwritten : provider.Unwritten event)
    (currentStorageState : Option StorageState) (transient : Transient) :
    ∃ view, (provider.appendAndView policy event (eventOperationId event) currentStorageState transient).1 =
      .ok (some view) ∧ view.transient = some transient := by
  have written := append_isSome run.inStep policy room acceptable unwritten
  obtain ⟨-, shown⟩ := append_spec run policy event
  unfold appendAndView
  generalize provider.append policy event = completed at written shown ⊢
  obtain ⟨next, done⟩ := completed
  dsimp only at written
  subst written
  obtain ⟨record, -, found, -⟩ := shown rfl
  dsimp only at found ⊢
  rw [found]
  exact ⟨_, rfl, rfl⟩

/-- What is asked of an operation that is to be prepared. -/
structure Startable (provider : Provider) (input : PrepareRequest) : Prop where
  unknown : provider.index.operations.get? input.operationId = none
  expected : ∀ state ∈ input.expectedStorageState, provider.cache.state.storages.get? input.storageId = state
  idle : pendingOperationForStorage provider.cache.state input.storageId = none
  allowed : assertPreparePrecondition (provider.cache.state.storages.get? input.storageId) input.kind

theorem Startable.acceptable {input : PrepareRequest} (h : provider.Startable input)
    (run : IndexedRun provider.cache provider.index) :
    Acceptable provider.cache.state (.prepared input.kind input.operationId input.request input.storageId
      (provider.cache.state.storages.get? input.storageId)) := by
  refine ⟨?_, h.idle, rfl, h.allowed⟩
  cases held : provider.cache.state.operations.get? input.operationId with
  | none => rfl
  | some operation =>
      obtain ⟨row, found⟩ := run.covered _ _ held
      rw [h.unknown] at found
      cases found

/-- An operation that can be started is appended. -/
theorem prepareOperation_startable {input : PrepareRequest} (run : IndexedRun provider.cache provider.index)
    (policy : RotationPolicy) (h : provider.Startable input) : provider.prepareOperation policy input =
      provider.appendAndView policy (.prepared input.kind input.operationId input.request input.storageId
          (provider.cache.state.storages.get? input.storageId)) input.operationId
        (provider.cache.state.storages.get? input.storageId) { replayed := false, shouldDispatch := true } := by
  unfold prepareOperation
  rw [readOperation_eq run, h.unknown]
  dsimp only [Option.map_none]
  rw [if_neg, if_neg (not_not_intro h.idle), if_neg (not_not_intro h.allowed)]
  rintro ⟨state, member, other⟩
  exact other (h.expected state member)

/-- The provider holds what is prepared by the rows. -/
theorem holdsPrepared (run : IndexedRun provider.cache provider.index) {operationId : OpaqueId} {existing : Operation}
    (found : (provider.index.operations.get? operationId).map OperationRow.record = some existing) :
    provider.HoldsPrepared operationId existing := by
  obtain ⟨row, held, rfl⟩ := Option.map_eq_some_iff.mp found
  intro pending
  have mirrors := run.inStep.mirrors
  refine (mirrors.pending.mpr ⟨pending, held.trans (congrArg some ?_)⟩).1
  rw [← mirrors.unstamped held pending]

/-- An error that the caller has to answer for. -/
def IsConflict (error : ProviderError) : Prop :=
  error = .operationConflict ∨ error = .operationAlreadyPrepared

theorem prepareOperation_progress (run : IndexedRun provider.cache provider.index) (policy : RotationPolicy)
    (room : provider.HasRoom) (input : PrepareRequest) :
    (∀ error, (provider.prepareOperation policy input).1 = .error error → IsConflict error) ∧
      ((∃ view, (provider.prepareOperation policy input).1 = .ok (some view) ∧
          view.transient = some { replayed := false, shouldDispatch := true }) ↔ provider.Startable input) := by
  have refused {completed : ProviderAnswer × Provider} {reason : ProviderError}
      (same : completed = (.error reason, provider)) (conflict : IsConflict reason)
      (no : ¬ provider.Startable input) :
      (∀ error, completed.1 = .error error → IsConflict error) ∧
        ((∃ view, completed.1 = .ok (some view) ∧
          view.transient = some { replayed := false, shouldDispatch := true }) ↔ provider.Startable input) := by
    subst same
    exact ⟨by rintro _ ⟨⟩; exact conflict, by rintro ⟨_, ⟨⟩, _⟩, fun yes => absurd yes no⟩
  unfold prepareOperation
  rw [readOperation_eq run]
  cases found : (provider.index.operations.get? input.operationId).map OperationRow.record with
  | some existing =>
      have known : ¬ provider.Startable input := by
        intro startable
        rw [startable.unknown] at found
        cases found
      dsimp only
      split
      · exact ⟨by rintro _ ⟨⟩, by rintro ⟨_, ⟨⟩, ⟨⟩⟩, fun yes => absurd yes known⟩
      · exact refused rfl (.inl rfl) known
  | none =>
      have unknown := Option.map_eq_none_iff.mp found
      dsimp only
      split
      · rename_i other
        obtain ⟨state, expected, ne⟩ := other
        exact refused rfl (.inl rfl) fun startable => ne (startable.expected state expected)
      rename_i expected
      split
      · rename_i busy
        exact refused rfl (.inr rfl) fun startable => busy startable.idle
      rename_i idle
      split
      · rename_i forbidden
        exact refused rfl (.inl rfl) fun startable => forbidden startable.allowed
      rename_i allowed
      have startable : provider.Startable input := by
        refine ⟨unknown, ?_, not_not.mp idle, not_not.mp allowed⟩
        intro state member
        by_contra ne
        exact expected ⟨state, member, ne⟩
      obtain ⟨view, done, shown⟩ := appendAndView_ok run policy room (startable.acceptable run) unknown
        (provider.cache.state.storages.get? input.storageId) { replayed := false, shouldDispatch := true }
      change (provider.appendAndView policy _ input.operationId _ _).1 = _ at done
      refine ⟨?_, fun _ => startable, fun _ => ⟨view, done, shown⟩⟩
      intro error failed
      rw [done] at failed
      cases failed

/-- What is prepared and may be committed is appended. -/
theorem commitOperation_pending {input : CommitRequest} {existing : Operation}
    (run : IndexedRun provider.cache provider.index) (policy : RotationPolicy)
    (pending : Pending provider.cache.state input.operationId existing) (request : existing.request = input.request)
    (current : provider.cache.state.storages.get? existing.storageId = existing.storageStateBefore)
    (storage : input.storageState.storageId = existing.storageId)
    (transition : assertStorageTransition existing.storageStateBefore input.storageState existing.kind) :
    provider.commitOperation policy input =
      provider.appendAndView policy (.committed (expectedStorageState existing.storageStateBefore) input.operationId
          (some existing.preparedChecksum) input.result input.storageState) input.operationId (some input.storageState)
        { replayed := false, shouldDispatch := false } := by
  obtain ⟨uncommitted, row⟩ := run.inStep.mirrors.pending.mp pending
  have held : provider.HoldsPrepared input.operationId existing := fun _ => pending.1
  unfold commitOperation
  rw [readOperation_eq run, row]
  dsimp only [Option.map_some]
  rw [if_neg (not_not_intro held), if_neg (not_not_intro request), if_neg (not_not_intro uncommitted), current]
  rw [if_neg, if_neg (not_not_intro transition)]
  rintro (other | other)
  · exact other rfl
  · exact other storage

theorem commitOperation_progress (run : IndexedRun provider.cache provider.index) (policy : RotationPolicy)
    (room : provider.HasRoom) (input : CommitRequest) (error : ProviderError)
    (failed : (provider.commitOperation policy input).1 = .error error) : IsConflict error := by
  unfold commitOperation at failed
  rw [readOperation_eq run] at failed
  cases found : (provider.index.operations.get? input.operationId).map OperationRow.record with
  | none =>
      rw [found] at failed
      cases failed
      exact .inl rfl
  | some existing =>
      have held := holdsPrepared run found
      rw [found] at failed
      dsimp only at failed
      rw [if_neg (not_not_intro held)] at failed
      split at failed
      · cases failed
        exact .inl rfl
      split at failed
      · cases failed
      rename_i open'
      have pending := not_not.mp open'
      split at failed
      · cases failed
        exact .inl rfl
      rename_i checks
      obtain ⟨current, sameStorage⟩ := not_or.mp checks
      split at failed
      · cases failed
        exact .inl rfl
      rename_i transition
      have acceptable : Acceptable provider.cache.state (.committed
          (expectedStorageState (provider.cache.state.storages.get? existing.storageId)) input.operationId
          (some existing.preparedChecksum) input.result input.storageState) := by
        have before := not_not.mp current
        refine ⟨existing, ⟨held pending, pending⟩, rfl, before, by rw [before], not_not.mp sameStorage, ?_⟩
        rw [← before]
        exact not_not.mp transition
      obtain ⟨view, done, -⟩ := appendAndView_ok run policy room acceptable True.intro
        (some input.storageState) { replayed := false, shouldDispatch := false }
      cases done.symm.trans failed

theorem readOperation_progress (run : IndexedRun provider.cache provider.index) (input : ReadRequest)
    (error : ProviderError) (failed : (provider.readOperation input).1 = .error error) : IsConflict error := by
  unfold readOperation at failed
  rw [readOperation_eq run] at failed
  cases found : (provider.index.operations.get? input.operationId).map OperationRow.record with
  | none =>
      rw [found] at failed
      cases failed
  | some record =>
      rw [found] at failed
      dsimp only at failed
      split at failed
      · cases failed
        exact .inl rfl
      · cases failed

end Provider

end PortableCodex.Authority
