import PortableCodex.Authority.ProviderProgress

/-!
The runs of providers over one authority.

`operationLaws` says of any order of calls what each answer has to do with the earlier ones about the same operation,
and `progressLaws` what a call can be refused for.
-/

namespace PortableCodex.Authority

open Js ProviderState HeadAnchor Traces

/-- The view that a call has returned. -/
def ProviderEvent.view (event : ProviderEvent) : Option OperationView := event.answer.bind viewOf

/-- The view of an operation that is to be dispatched. -/
def ProviderEvent.dispatches (operationId : OpaqueId) (event : ProviderEvent) : Bool :=
  event.view.any fun view => view.record.operationId = operationId ∧ view.transient.any (·.shouldDispatch) = true

theorem ProviderEvent.dispatches_iff {operationId : OpaqueId} {event : ProviderEvent} :
    event.dispatches operationId = true ↔ ∃ view ∈ event.view, view.record.operationId = operationId ∧
      view.transient.any (·.shouldDispatch) = true := by
  rw [dispatches, Option.any_eq_true]
  simp only [decide_eq_true_eq]
  rfl

/-- What an earlier answer has shown. -/
def Seen (before : List ProviderEvent) (record : Operation) : Prop :=
  ∃ event ∈ before, ∃ view ∈ event.view, view.record = record

/-- What a call has to do with the calls before it. -/
structure ProviderLaw (before : List ProviderEvent) (event : ProviderEvent) : Prop where
  /-- A view is the operation as it was seen, perhaps committed since. -/
  continues : ∀ view ∈ event.view, ∀ old, Seen before old → old.operationId = view.record.operationId →
    Continues old view.record
  /-- An operation that is to be dispatched was not seen before. -/
  dispatches : ∀ operationId, event.dispatches operationId = true → ∀ old, Seen before old →
    old.operationId ≠ operationId
  /-- An operation that was seen is not prepared again: the same request replays it, any other one is a conflict. -/
  prepares : ∀ input answer, event = { call := .prepareOperation input, answer := some answer } →
    ∀ old, Seen before old → old.operationId = input.operationId →
      (Provider.SameOperation old input → ∃ view, answer = .ok (some view) ∧ view.transient = some replayed) ∧
      (¬ Provider.SameOperation old input → answer = .error .operationConflict)
  /-- An operation that was seen committed stays so, whatever a later call wants to commit. -/
  commits : ∀ input answer, event = { call := .commitOperation input, answer := some answer } →
    ∀ old, Seen before old → old.operationId = input.operationId → old.commit ≠ none →
      (old.request = input.request → ∃ view, answer = .ok (some view) ∧ view.record = old ∧
        view.transient = some replayed) ∧
      (old.request ≠ input.request → answer = .error .operationConflict)

/-- What holds of the calls of providers and of the state that they lead to. -/
structure OperationLaws (trace : List ProviderEvent) (provider : Provider) : Prop where
  calls : Lawful ProviderLaw trace
  /-- No operation is to be dispatched twice. -/
  once : ∀ operationId, trace.countP (·.dispatches operationId) ≤ 1
  /-- Preparing what was seen, or committing what was seen committed, changes nothing. -/
  still : ∀ old, Seen trace old → ∀ policy,
    (∀ input : PrepareRequest, old.operationId = input.operationId →
      (provider.prepareOperation policy input).2 = provider) ∧
    (∀ input : CommitRequest, old.operationId = input.operationId → old.commit ≠ none →
      (provider.commitOperation policy input).2 = provider)

/-- What was seen is known. -/
structure ProviderInvariant (trace : List ProviderEvent) (provider : Provider) : Prop where
  run : IndexedRun provider.cache provider.index
  calls : Lawful ProviderLaw trace
  seen : ∀ old, Seen trace old → provider.Knows old

section Steps

variable {trace events : List ProviderEvent} {provider next : Provider} {policy : RotationPolicy}

theorem Seen.append {record : Operation} (h : Seen (trace ++ events) record) :
    Seen trace record ∨ Seen events record := by
  obtain ⟨event, member, view, held, same⟩ := h
  rcases List.mem_append.mp member with earlier | now
  · exact .inl ⟨event, earlier, view, held, same⟩
  · exact .inr ⟨event, now, view, held, same⟩

theorem providerLaw_answered (inv : ProviderInvariant trace provider) {call : ProviderCall} {answer : ProviderAnswer}
    (performs : provider.perform policy call = (answer, next)) :
    ProviderLaw trace { call, answer := some answer } := by
  have answers := Provider.perform_answers inv.run policy call
  rw [performs] at answers
  constructor
  · intro view shown old before same
    exact answers.continues view shown old (inv.seen old before) (same.trans (answers.shows view shown).1)
  · intro operationId dispatched old before same
    obtain ⟨view, shown, rfl, dispatch⟩ := ProviderEvent.dispatches_iff.mp dispatched
    exact answers.dispatches view shown dispatch old (inv.seen old before) (same.trans (answers.shows view shown).1)
  · rintro input _ ⟨⟩ old before same
    have repeated := (Provider.prepareOperation_known inv.run policy (inv.seen old before) same).2
    change provider.prepareOperation policy input = _ at performs
    rwa [performs] at repeated
  · rintro input _ ⟨⟩ old before same committed
    have repeated :=
      (Provider.commitOperation_known inv.run policy (inv.seen old before) same committed).2
    change provider.commitOperation policy input = _ at performs
    rwa [performs] at repeated

theorem providerLaw_unanswered (before : List ProviderEvent) (call : ProviderCall) :
    ProviderLaw before { call, answer := none } :=
  ⟨by rintro _ ⟨⟩, by rintro _ ⟨⟩, by rintro _ _ ⟨⟩, by rintro _ _ ⟨⟩⟩

/-- An answer, and the providers behind its call. -/
theorem ProviderInvariant.answered (inv : ProviderInvariant trace provider) {call : ProviderCall}
    {answer : ProviderAnswer} (performs : provider.perform policy call = (answer, next)) :
    ProviderInvariant (trace ++ [{ call, answer := some answer }]) next := by
  have answers := Provider.perform_answers inv.run policy call
  rw [performs] at answers
  refine ⟨answers.extended.run, inv.calls.snoc (providerLaw_answered inv performs), ?_⟩
  intro old shown
  rcases shown.append with before | ⟨event, member, view, held, rfl⟩
  · exact answers.extended.keeps old (inv.seen old before)
  · obtain rfl := List.mem_singleton.mp member
    exact (answers.shows view held).2.knows

/-- A call without an answer shows nothing. -/
theorem ProviderInvariant.silent (inv : ProviderInvariant trace provider) (extended : provider.Extends next)
    (call : ProviderCall) : ProviderInvariant (trace ++ [{ call, answer := none }]) next := by
  refine ⟨extended.run, inv.calls.snoc (providerLaw_unanswered trace call), ?_⟩
  intro old shown
  rcases shown.append with before | ⟨event, member, view, held, rfl⟩
  · exact extended.keeps old (inv.seen old before)
  · obtain rfl := List.mem_singleton.mp member
    cases held

theorem ProviderInvariant.step (inv : ProviderInvariant trace provider) (taken : ProviderStep provider events next) :
    ProviderInvariant (trace ++ events) next := by
  cases taken with
  | answered policy call performs => exact inv.answered performs
  | unanswered policy call performs =>
      have answers := Provider.perform_answers inv.run policy call
      rw [performs] at answers
      exact inv.silent answers.extended call
  | unwritten call => exact inv.silent (.refl inv.run) call
  | rotated call rotates => exact inv.silent (Provider.rotate_spec inv.run rotates) call

theorem inv_of_run (run : Run providers trace provider) : ProviderInvariant trace provider := by
  refine run.invariant ?_ fun _ _ _ _ inv taken => inv.step taken
  rintro _ rfl
  exact ⟨.genesis, lawful_nil, by rintro _ ⟨_, ⟨⟩, _⟩⟩

end Steps

/-- Whatever answers are lost and whatever rotates, an operation is dispatched by one call at most, and a call that is
repeated returns what was recorded. -/
theorem operationLaws {trace : List ProviderEvent} {provider : Provider} (run : Run providers trace provider) :
    OperationLaws trace provider := by
  have inv := inv_of_run run
  refine ⟨inv.calls, fun operationId => ?_, fun old seen policy => ⟨?_, ?_⟩⟩
  · refine inv.calls.countP_le_one _ fun before event law dispatched earlier member => ?_
    -- a dispatched view is the first one of its operation
    rw [Bool.eq_false_iff]
    intro also
    obtain ⟨view, shown, same, -⟩ := ProviderEvent.dispatches_iff.mp also
    exact law.dispatches operationId dispatched view.record ⟨earlier, member, view, shown, rfl⟩ same
  · intro input same
    exact (Provider.prepareOperation_known inv.run policy (inv.seen old seen) same).1
  · intro input same committed
    exact (Provider.commitOperation_known inv.run policy (inv.seen old seen) same committed).1

/-! ### Calls of a provider with room -/

/-- What holds of the next call, as long as no counter of the provider ends. -/
structure ProgressLaws (provider : Provider) : Prop where
  /-- A call is refused for a conflict of its own, and for nothing else. -/
  refused : ∀ policy call error, (provider.perform policy call).1 = .error error → Provider.IsConflict error
  /-- An operation is to be dispatched exactly when the checks of `prepareOperation` allow it. -/
  dispatched : ∀ policy input, (∃ view, (provider.prepareOperation policy input).1 = .ok (some view) ∧
    view.transient = some { replayed := false, shouldDispatch := true }) ↔ provider.Startable input

/-- A provider with room refuses a call for a conflict of its own only. No append or rotation that a call proposes is
refused by the authority. -/
theorem progressLaws {trace : List ProviderEvent} {provider : Provider} (run : Run providers trace provider)
    (room : provider.HasRoom) : ProgressLaws provider := by
  have indexed := (inv_of_run run).run
  constructor
  · intro policy call error failed
    cases call with
    | prepareOperation input => exact (Provider.prepareOperation_progress indexed policy room input).1 error failed
    | commitOperation input => exact Provider.commitOperation_progress indexed policy room input error failed
    | readOperation input => exact Provider.readOperation_progress indexed input error failed
  · intro policy input
    exact (Provider.prepareOperation_progress indexed policy room input).2

/-! ### First calls -/

def firstProvider : Provider := { cache := genesisCache .v3, index := genesisIndex }

theorem provision_isOpaqueId : IsOpaqueId (js "provision") := by decide

/-- The first storage is to be provisioned. -/
def firstRequest : PrepareRequest where
  kind := .provision
  operationId := ⟨js "provision", provision_isOpaqueId⟩
  request := (firstPrepared .v3).request
  storageId := firstStorage.storageId
  expectedStorageState := some none

theorem firstProvider_startable : firstProvider.Startable firstRequest where
  unknown := rfl
  expected := by rintro _ ⟨⟩; rfl
  idle := rfl
  allowed := rfl

section Growing

variable {provider : Provider} {n : Nat}

/-- A few frames leave room, also behind a rotation. -/
theorem Young.hasRoom (young : Young n provider.cache provider.index) (few : n + 1 < 8) : provider.HasRoom := by
  have inStep := young.run.inStep
  have backed := inStep.backed
  have keyed := backed.reached.invariant.keyed
  have counted : n ≤ maxFrameCount := by
    unfold maxFrameCount
    omega
  constructor
  · exact not_exhausted_of_sized (young.canAdvance (by omega)) keyed young.sized counted
  · intro frames next rotates
    have turned := rotateGeneration_rotated frames rotates
    have after := backed.rotated rotates
    obtain ⟨result, rotated, same⟩ := Option.bind_eq_some_iff.mp rotates
    obtain rfl := Option.some.inj same
    obtain ⟨snapshot, facts⟩ := rotation_eq_some keyed backed.anchors rotated
    have version : provider.cache.state.contractVersion = .v3 := backed.anchors.version.symm.trans inStep.version
    have sized := (facts.transparent backed.reached rotated).sizedBy version young.sized
    have room : CanAdvance result.head := by
      have anchored : result.head.anchorRevision.val = provider.cache.head.anchorRevision.val + 1 :=
        turned.anchorRevision
      have anchor := young.anchorRevision
      unfold CanAdvance
      omega
    exact not_exhausted_of_sized room after.reached.invariant.keyed sized counted

theorem Young.append (young : Young n provider.cache provider.index) (few : n < 8) (event : DeltaEvent)
    {P : GenerationState → Prop} (applies : ∀ version previous sequence revision checksum, ∃ record state,
      Applied provider.cache.state checksum (event.frame version previous sequence revision) record state ∧ P state) :
    ∃ next : Provider, provider.append patientPolicy event = (next, true) ∧ Young (n + 1) next.cache next.index ∧
      P next.cache.state := by
  obtain ⟨cache, index, grown, holds, appends, transition, proposes, advanced⟩ := young.extend few event applies
  obtain ⟨encoded, encodes, -, fits⟩ := young.encodes few event
  have place : provider.cache.head.frameCount.val + 1 < maxFrameCount := by
    have := young.frameCount
    unfold maxFrameCount
    omega
  have written : provider.appendEvent event = some { cache, index } :=
    read_then appends (read_then proposes (read_then (congrArg Option.join advanced) rfl))
  refine ⟨{ cache, index }, ?_, grown, holds⟩
  unfold Provider.append
  rw [rotatesFirst_patient encodes place fits]
  dsimp only
  unfold Provider.appended
  rw [written]

theorem Provider.appendAndView_next {policy : RotationPolicy} {event : DeltaEvent} {next : Provider} {done : Bool}
    (appends : provider.append policy event = (next, done)) (operationId : OpaqueId)
    (currentStorageState : Option StorageState) (transient : Transient) :
    (provider.appendAndView policy event operationId currentStorageState transient).2 = next := by
  unfold appendAndView
  rw [appends]
  cases done with
  | false => rfl
  | true =>
      dsimp only
      split <;> rfl

theorem Provider.perform_eq {policy : RotationPolicy} {call : ProviderCall} {next : Provider}
    (reaches : (provider.perform policy call).2 = next) :
    provider.perform policy call = ((provider.perform policy call).1, next) := by
  rw [← reaches]

end Growing

/-- The commit of the first storage. -/
def firstCommit : CommitRequest where
  operationId := firstRequest.operationId
  request := firstRequest.request
  result := (firstPrepared .v3).request
  storageState := firstStorage

/-- Then the storage is to be attached. -/
def attachRequest : PrepareRequest where
  kind := .attach
  operationId := (attachPrepared .v3 provisionChecksum).operationId
  request := firstRequest.request
  storageId := firstStorage.storageId
  expectedStorageState := some (some firstStorage)

theorem firstProvider_young : Young 0 firstProvider.cache firstProvider.index := young_genesis

/-- The provision is prepared. -/
theorem exists_prepared : ∃ answer next,
    firstProvider.perform patientPolicy (.prepareOperation firstRequest) = (answer, next) ∧
      Young 1 next.cache next.index ∧ Prepares [] none firstRequest.operationId .provision next.cache.state := by
  have young := firstProvider_young
  obtain ⟨next, appends, grown, prepares⟩ := young.append (by omega)
    (.prepared .provision firstRequest.operationId firstRequest.request firstStorage.storageId none)
    (settled_genesis.prepares .provision firstRequest.operationId List.not_mem_nil rfl)
  refine ⟨_, next, Provider.perform_eq ?_, grown, prepares⟩
  dsimp only [Provider.perform]
  rw [Provider.prepareOperation_startable young.run patientPolicy firstProvider_startable]
  exact Provider.appendAndView_next appends _ _ _

/-- And committed. -/
theorem exists_provisioned {provider : Provider} (young : Young 1 provider.cache provider.index)
    (prepares : Prepares [] none firstRequest.operationId .provision provider.cache.state) : ∃ answer next,
      provider.perform patientPolicy (.commitOperation firstCommit) = (answer, next) ∧
        Young 2 next.cache next.index ∧
        Settled [firstRequest.operationId] (some firstStorage) next.cache.state := by
  obtain ⟨operation, same, kind, preparing⟩ := prepares
  have transition : assertStorageTransition none firstStorage .provision := by decide
  have allowed : assertStorageTransition none firstStorage operation.kind := by
    rw [kind]
    exact transition
  obtain ⟨next, appends, grown, settled⟩ := young.append (by omega) _ (preparing.commits firstStorage allowed rfl
    fun _ => by decide)
  have pending : Pending provider.cache.state firstCommit.operationId operation := by
    refine ⟨?_, preparing.pending⟩
    rw [show firstCommit.operationId = operation.operationId from same.symm]
    exact preparing.found
  rw [same] at appends settled
  refine ⟨_, next, Provider.perform_eq ?_, grown, settled⟩
  dsimp only [Provider.perform]
  rw [Provider.commitOperation_pending young.run patientPolicy pending preparing.request ?_ ?_ ?_, preparing.before]
  · exact Provider.appendAndView_next appends _ _ _
  · rw [preparing.storageId, preparing.storage_eq, preparing.before]
  · exact preparing.storageId.symm
  · rw [preparing.before]
    exact allowed

/-- A provider that has provisioned a storage is to dispatch its attach. -/
theorem progressLaws_attach : ∃ trace provider, Run providers trace provider ∧ trace.length = 2 ∧
    ProgressLaws provider ∧ provider.Startable attachRequest := by
  obtain ⟨_, prepared, prepares, young, preparing⟩ := exists_prepared
  obtain ⟨_, provider, commits, young, settled⟩ := exists_provisioned young preparing
  have begun : Run providers [] firstProvider := .start rfl
  have run := (begun.step (.answered patientPolicy _ prepares)).step (.answered patientPolicy _ commits)
  refine ⟨_, provider, run, rfl, progressLaws run (young.hasRoom (by omega)), ?_, ?_, ?_, ?_⟩
  · refine young.same _ ?_
    cases held : provider.cache.state.operations.get? attachRequest.operationId with
    | none => rfl
    | some operation => exact absurd (settled.committed _ _ held).2 (by decide)
  · rintro _ ⟨⟩
    exact settled.storage_eq
  · refine pendingOperationForStorage_eq_none.mpr ?_
    intro id operation found pending
    exact absurd pending (settled.committed id operation found).1
  · rw [show attachRequest.storageId = firstStorage.storageId from rfl, settled.storage_eq]
    decide

/-- The first of two equal calls is to be dispatched. -/
theorem operationLaws_repeated : ∃ trace provider, OperationLaws trace provider ∧ trace.length = 2 ∧
    ∃ event ∈ trace, event.dispatches firstRequest.operationId = true := by
  have start : IndexedRun firstProvider.cache firstProvider.index := .genesis
  have answers := Provider.perform_answers start patientPolicy (.prepareOperation firstRequest)
  obtain ⟨view, shown, dispatch⟩ := (Provider.prepareOperation_progress start patientPolicy
    (firstProvider_young.hasRoom (by omega)) firstRequest).2.mpr firstProvider_startable
  change (firstProvider.perform patientPolicy (.prepareOperation firstRequest)).1 = _ at shown
  generalize performs : firstProvider.perform patientPolicy (.prepareOperation firstRequest) = completed
    at answers shown
  obtain ⟨answer, next⟩ := completed
  obtain rfl : answer = .ok (some view) := shown
  have begun : Run providers [] firstProvider := .start rfl
  have first := begun.step (.answered patientPolicy _ performs)
  have second := first.step (.answered patientPolicy (.prepareOperation firstRequest) (Prod.eta _).symm)
  refine ⟨_, _, operationLaws second, rfl, _, List.mem_cons_self, ?_⟩
  exact ProviderEvent.dispatches_iff.mpr ⟨view, rfl, (answers.shows view rfl).1, by rw [dispatch]; rfl⟩

end PortableCodex.Authority
