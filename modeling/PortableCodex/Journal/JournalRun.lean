import PortableCodex.Journal.JournalLaws
import PortableCodex.Traces.Run

/-!
Runs of the operation journal.

The calls of a run follow one another, as the lock makes them, and each can stop at any operation. A call
touches the files of its own operation ID. Over a run the canonical file of an ID only advances from record to
record (`Advances`, `Extends`), and each call keeps its word about what it did (`CallLaws`).
-/

namespace PortableCodex.Journal

open Js Traces
open Contracts (checkpointDescriptorKeys mutationRequestKeys mutationResultKeys)
open ProviderState (OpaqueId record)

section Operations

variable {trustRenameOutcome : Bool} {d : RecordFiles} {currentUid : Nat} {operationId : OpaqueId}
  {target : Option JournalRecord} {commitState : CommitState}

/-! ### Operations of a run -/

/-- What an error with a commit state tells of the content, in a call that began with `d` and asked for `target`. -/
def Tells (target : Option JournalRecord) (d : RecordFiles) (commitState : CommitState) (after : RecordFiles) : Prop :=
  (commitState = .notCommitted → after.content = d.content) ∧
    (commitState = .committed → ∃ r, target = some r ∧ after.content = some r.bytes ∧ Follows d r)

theorem Tells.kept {s after : RecordFiles} (tells : Tells target d commitState s) (keeps : Keeps s after) :
    Tells target d commitState after := by
  refine ⟨fun told => keeps.content.trans (tells.1 told), fun told => ?_⟩
  obtain ⟨r, same, held, follows⟩ := tells.2 told
  exact ⟨r, same, keeps.content.trans held, follows⟩

theorem Tells.uncertain {after : RecordFiles} : Tells target d .uncertain after := by
  constructor <;> intro told <;> cases told

theorem Tells.unchanged {after : RecordFiles} (same : after.content = d.content) (other : commitState ≠ .committed) :
    Tells target d commitState after := ⟨fun _ => same, fun told => absurd told other⟩

theorem Tells.reports {after : RecordFiles} (certain : commitState ≠ .uncertain → after.content = d.content)
    (other : commitState ≠ .committed) : Tells target d commitState after := by
  refine ⟨fun told => certain ?_, fun told => absurd told other⟩
  rw [told]
  intro same
  cases same

/-- How the operation of a run ends. -/
def Completes (target : Option JournalRecord) (done : Completed → RecordFiles → Prop) (d : RecordFiles) :
    Except Thrown Completed → RecordFiles → Prop
  | .ok completed, after => done completed after ∧ Tells target d completed.commitState after
  | .error e, after => Tells target d e.commitState after

/-- How a call ends. -/
def Concludes (target : Option JournalRecord) (returns : Outcome → RecordFiles → Prop) (d : RecordFiles) :
    Except JournalError Outcome → RecordFiles → Prop
  | .ok outcome, after => returns outcome after
  | .error e, after => Tells target d e.commitState after

/-- The operation completed with files that the later checks kept; its record is durable. -/
def Verified (done : Completed → RecordFiles → Prop) (completed : Completed) (after : RecordFiles) : Prop :=
  ∃ s, done completed s ∧ Keeps s after ∧ (completed.verification.isSome = true → after.Durable)

variable {guarantee : RecordFiles → RecordFiles → Prop} {operation : JournalProgram Completed}
  {done : Completed → RecordFiles → Prop}

/-- What `#run` adds to its operation under the lock. -/
theorem safe_lockedRun (wide : ∀ s s', Keeps s s' → guarantee s s') {s₀ : RecordFiles} (kept₀ : Keeps d s₀)
    (body : ∀ s, Keeps d s → Safe (effect trustRenameOutcome) Eq guarantee (Completes target done d) operation.run s) :
    Safe (effect trustRenameOutcome) Eq guarantee (Completes target (Verified done) d)
      (lockedRun currentUid operationId operation).run s₀ := by
  have current : Safe (effect trustRenameOutcome) Eq guarantee _ assertCurrent.run s₀ :=
    Safe.mono (steady_assertCurrent s₀) wide fun _ _ => id
  refine Safe.bindExcept current ?_ ?_
  · rintro _ s ⟨keeps, -⟩
    refine Safe.bindExcept (body s (kept₀.trans keeps)) ?_ fun e s' tells => tells
    rintro completed s₁ ⟨holds, tells⟩
    rintro _ rfl ok s₂ truthful
    have keeps₂ := truthful.keeps rfl
    refine ⟨wide _ _ keeps₂, ?_⟩
    cases ok with
    | false => exact tells.kept keeps₂
    | true =>
        have visible : Reads trustRenameOutcome s₂
            (fun _ after => completed.verification.isSome = true → after.Durable)
            (verifyVisibleRecord currentUid operationId completed.verification) :=
          reads_verifyVisibleRecord completed.verification
        have reads := Safe.mono visible wide fun _ _ => id
        have verified := reads.and (safe_verifyVisibleRecord completed.verification)
        refine Safe.bindExcept (Safe.mono verified (fun _ _ => And.left) fun _ _ => id) ?_ ?_
        · rintro _ s₃ ⟨⟨keeps₃, durable⟩, -⟩
          exact ⟨⟨s₁, holds, keeps₂.trans keeps₃, durable⟩, tells.kept (keeps₂.trans keeps₃)⟩
        · rintro e s₃ ⟨-, doubted⟩
          obtain rfl := doubted e rfl
          exact Tells.uncertain
  · rintro e s ⟨keeps, state⟩
    exact Tells.unchanged (kept₀.trans keeps).content state

/-- What `#run` makes of the end of its operation. -/
theorem safe_run {returns : Outcome → RecordFiles → Prop} (wide : ∀ s s', Keeps s s' → guarantee s s')
    (body : ∀ s, Keeps d s → Safe (effect trustRenameOutcome) Eq guarantee (Completes target done d) operation.run s)
    (returned : ∀ completed after, Verified done completed after → returns completed.value after)
    (stable : ∀ outcome s after, returns outcome s → Keeps s after → returns outcome after) :
    Safe (effect trustRenameOutcome) Eq guarantee (Concludes target returns d)
      (run currentUid operationId operation).run d := by
  rintro _ rfl opened s truthful
  have keeps := truthful.keeps rfl
  refine ⟨wide _ _ keeps, ?_⟩
  cases opened with
  | false => exact Tells.unchanged keeps.content (by intro same; cases same)
  | true =>
  rintro _ rfl locked s₁ truthful₁
  have kept₁ := keeps.trans (truthful₁.keeps rfl)
  refine ⟨wide _ _ (truthful₁.keeps rfl), ?_⟩
  cases locked with
  | false =>
      rintro _ rfl closed s₂ truthful₂
      have kept₂ := kept₁.trans (truthful₂.keeps rfl)
      refine ⟨wide _ _ (truthful₂.keeps rfl), ?_⟩
      cases closed <;> exact Tells.unchanged kept₂.content (by intro same; cases same)
  | true =>
  have ran : Safe (effect trustRenameOutcome) Eq guarantee (fun r s => ∃ ended, r = .ok ended ∧
      Completes target (Verified done) d ended s)
      (ExceptT.lift (lockedRun currentUid operationId operation).run :
        Fallible JournalOp JournalAnswer JournalError (Except Thrown Completed)).run s₁ :=
    Safe.bind (safe_lockedRun wide kept₁ body) fun ended s holds => ⟨ended, rfl, holds⟩
  refine Safe.bindExcept ran ?_ fun e s ⟨_, same, _⟩ => nomatch same
  rintro ended s₂ ⟨_, ⟨⟩, holds⟩ _ rfl released s₃ truthful₃
  refine ⟨wide _ _ (truthful₃.keeps rfl), ?_⟩
  rintro _ rfl closed s₄ truthful₄
  refine ⟨wide _ _ (truthful₄.keeps rfl), ?_⟩
  have kept := (truthful₃.keeps rfl).trans (truthful₄.keeps rfl)
  have failed : Tells target d (runCommitState (ended.mapError normalizeRuntimeError)) s₄ := by
    cases ended with
    | ok completed => exact holds.2.kept kept
    | error e => exact Tells.kept holds kept
  cases released with
  | false => exact failed
  | true =>
  cases closed with
  | false => exact failed
  | true =>
  cases ended with
  | ok completed => exact stable _ _ _ (returned completed s₂ holds.1) kept
  | error e => exact failed

end Operations

/-! ### Requests -/

section Requests

variable {trustRenameOutcome : Bool} {d : RecordFiles} {currentUid : Nat} {operationId : OpaqueId}

/-- The record that a request asks for. -/
def Request.target : Request → Option JournalRecord
  | .read _ => none
  | .transition input requestedState _ => some (targetRecord input requestedState)

/-- What a request that began with `d` can return: a read returns the record that is there; a transition replays
the record that is there, or returns the record that it installed. -/
def Request.Returns (d : RecordFiles) : Request → Outcome → RecordFiles → Prop
  | .read _, outcome, after =>
      outcome.replayed = false ∧ after.content = d.content ∧ d.content = outcome.record.map JournalRecord.bytes
  | .transition input requestedState requireAbsent, outcome, after =>
      (outcome.replayed = true ∧ requireAbsent = false ∧ after.content = d.content ∧
        ∃ r, outcome.record = some r ∧ d.content = some r.bytes ∧ SameOperation r input) ∨
      (outcome.replayed = false ∧ (requireAbsent = true → d.content = none) ∧ after.content ≠ d.content ∧
        ∃ r, outcome.record = some r ∧ SameRecord r (targetRecord input requestedState) ∧
          after.content = some r.bytes ∧ Follows d (targetRecord input requestedState))

theorem Request.Returns.kept {request : Request} {outcome : Outcome} {s after : RecordFiles}
    (returns : request.Returns d outcome s) (keeps : Keeps s after) : request.Returns d outcome after := by
  cases request with
  | read operationId => exact ⟨returns.1, keeps.content.trans returns.2.1, returns.2.2⟩
  | transition input requestedState requireAbsent =>
      rcases returns with ⟨replayed, old, same, held⟩ | ⟨installed, fresh, changed, r, shown, same, held, follows⟩
      · exact .inl ⟨replayed, old, keeps.content.trans same, held⟩
      · exact .inr ⟨installed, fresh, keeps.content.symm ▸ changed, r, shown, same, keeps.content.trans held, follows⟩

/-- A record that follows what is there differs from it. -/
theorem Follows.changes {r : JournalRecord} (follows : Follows d r) : d.content ≠ some r.bytes := by
  intro held
  rcases follows with ⟨missing, -⟩ | ⟨earlier, held', next⟩
  · cases missing.symm.trans held
  · have same := bytes_inj (Option.some.inj (held'.symm.trans held))
    obtain ⟨state, state', first, second, less⟩ := next.ranks
    obtain rfl := StateValue.named.inj (first.symm.trans (same.state.trans second))
    exact lt_irrefl _ less

/-- The completed operation of a request. -/
def Request.Done (d : RecordFiles) (request : Request) (completed : Completed) (after : RecordFiles) : Prop :=
  request.Returns d completed.value after ∧ completed.verification.isSome = completed.value.record.isSome

theorem reads_visible :
    Reads trustRenameOutcome d (fun completed after => (Request.read operationId).Done d completed after ∧
      completed.commitState = .notCommitted) (readVisible currentUid operationId) := by
  refine (steady_assertHeld).then fun _ s₁ keeps₁ => ?_
  refine reads_readCanonicalRecord.bind fun visible s₂ keeps₂ shown => ?_
  refine (reads_confirmVisibleRecord shown).bind fun existing s₃ keeps₃ ⟨shown', same⟩ => Reads.pure ?_
  have content := (keeps₁.trans (keeps₂.trans keeps₃)).content
  refine ⟨⟨⟨rfl, content, content.symm.trans shown'.content⟩, ?_⟩, rfl⟩
  cases visible with
  | none =>
      obtain rfl := Option.map_eq_none_iff.mp same
      rfl
  | some found =>
      obtain ⟨r, rfl, -⟩ := Option.map_eq_some_iff.mp same
      rfl

theorem installs_transition (input : OperationInput) (requestedState : State) (requireAbsent : Bool)
    {s : RecordFiles} (kept : Keeps d s) :
    Installs trustRenameOutcome (targetRecord input requestedState) s d.content
      (fun completed after => (Request.transition input requestedState requireAbsent).Done d completed after ∧
        Tells (some (targetRecord input requestedState)) d completed.commitState after)
      (transition currentUid operationId trustRenameOutcome input requestedState requireAbsent) := by
  refine (steady_assertHeld s).before kept.content fun _ s₁ keeps₁ _ => ?_
  have same₁ := keeps₁.content.trans kept.content
  refine reads_readCanonicalRecord.before same₁ fun visible s₂ keeps₂ shown => ?_
  have same₂ := keeps₂.content.trans same₁
  refine (reads_confirmVisibleRecord shown).before same₂ fun existing s₃ keeps₃ confirmed => ?_
  obtain ⟨shown', same⟩ := confirmed
  have same₃ := keeps₃.content.trans same₂
  refine Reads.checked.before same₃ fun plan s₄ keeps₄ checked => ?_
  obtain ⟨-, planned⟩ := checked
  have same₄ := keeps₄.content.trans same₃
  have held : d.content = existing.map JournalRecord.bytes := same₃.symm.trans shown'.content
  have lawful := planTransition_for planned
  cases plan with
  | replay r =>
      obtain ⟨rfl, operation, old⟩ := lawful
      obtain ⟨found, rfl, -⟩ := Option.map_eq_some_iff.mp same.symm
      refine ⟨⟨.inl ⟨rfl, old, same₄, r, rfl, held, operation⟩, rfl⟩, Tells.unchanged same₄ ?_⟩
      intro told
      cases told
  | install r =>
      obtain ⟨rfl, fresh, continues⟩ := lawful
      have follows : Follows d (targetRecord input requestedState) := by
        rcases continues with ⟨rfl, rfl⟩ | ⟨earlier, rfl, next⟩
        · exact .inl ⟨held, rfl⟩
        · exact .inr ⟨earlier, held, next⟩
      have follows₄ : Follows s₄ (targetRecord input requestedState) := by rwa [Follows, same₄]
      refine (installs_writeCanonicalRecord same₄ follows₄).bind fun published s₅ written => ?_
      obtain ⟨installed, equal⟩ := written
      have target := installed.trans (congrArg some equal)
      refine ⟨⟨.inr ⟨rfl, ?_, ?_, published.2, rfl, bytes_inj equal, installed, follows⟩, rfl⟩, ?_⟩
      · intro required
        rw [held, fresh required]
        rfl
      · rw [target]
        exact follows.changes.symm
      · refine ⟨fun told => ?_, fun _ => ⟨_, rfl, target, follows⟩⟩
        cases told

/-- What a call returns: what its request says, with a durable record. -/
def Request.Concludes (request : Request) (d : RecordFiles) : Except JournalError Outcome → RecordFiles → Prop :=
  Journal.Concludes request.target
    (fun outcome after => request.Returns d outcome after ∧ (outcome.record.isSome = true → after.Durable)) d

theorem Request.Done.returns {request : Request} {completed : Completed} {after : RecordFiles}
    (verified : Verified (request.Done d) completed after) :
    request.Returns d completed.value after ∧ (completed.value.record.isSome = true → after.Durable) := by
  obtain ⟨s, ⟨returns, shown⟩, keeps, durable⟩ := verified
  exact ⟨returns.kept keeps, fun some => durable (shown.trans some)⟩

/-- What a request can do to the canonical file: install the record that it asks for. -/
def Request.Changes : Request → RecordFiles → RecordFiles → Prop
  | .read _ => fun before after => after.content = before.content
  | .transition input requestedState _ => Installed (targetRecord input requestedState)

theorem Request.Changes.kept (request : Request) {before after : RecordFiles} (keeps : Keeps before after) :
    request.Changes before after := by
  cases request with
  | read operationId => exact keeps.content
  | transition input requestedState requireAbsent => exact keeps.installed

theorem Request.Changes.advances {request : Request} {before after : RecordFiles}
    (changes : request.Changes before after) :
    Advances before after := by
  cases request with
  | read operationId => exact .inl changes
  | transition input requestedState requireAbsent => exact Installed.advances changes

/-- A call installs at most the record it asks for, and keeps its word. -/
theorem changes_request (request : Request) (d : RecordFiles) :
    Safe (effect trustRenameOutcome) Eq request.Changes (request.Concludes d)
      (request.program currentUid trustRenameOutcome).run d := by
  have stable : ∀ (outcome : Outcome) (s after : RecordFiles),
      (request.Returns d outcome s ∧ (outcome.record.isSome = true → s.Durable)) → Keeps s after →
      request.Returns d outcome after ∧ (outcome.record.isSome = true → after.Durable) :=
    fun outcome s after returns keeps => ⟨returns.1.kept keeps, fun some => keeps.durable (returns.2 some)⟩
  cases request with
  | read operationId =>
      refine safe_run (fun _ _ => Request.Changes.kept _) (fun s keeps => ?_) (fun _ _ => Request.Done.returns) stable
      refine Safe.mono reads_visible (fun _ _ => Request.Changes.kept _) ?_
      rintro (e | completed) after ⟨kept, ends⟩
      · exact Tells.unchanged (kept.content.trans keeps.content) ends
      · obtain ⟨⟨⟨read, same, held⟩, shown⟩, state⟩ := ends
        refine ⟨⟨⟨read, same.trans keeps.content, keeps.content.symm.trans held⟩, shown⟩,
          Tells.unchanged (kept.content.trans keeps.content) ?_⟩
        rw [state]
        intro told
        cases told
  | transition input requestedState requireAbsent =>
      refine safe_run (fun _ _ => Request.Changes.kept _) (fun s keeps => ?_) (fun _ _ => Request.Done.returns) stable
      refine Safe.mono (installs_transition input requestedState requireAbsent keeps) (fun _ _ => id) ?_
      rintro (e | completed) after ends
      · exact Tells.reports ends.2 ends.1
      · exact ends

/-- A call advances the canonical file by at most the record it asks for, and keeps its word. -/
theorem safe_request (request : Request) (d : RecordFiles) :
    Safe (effect trustRenameOutcome) Eq Advances (request.Concludes d)
      (request.program currentUid trustRenameOutcome).run d :=
  Safe.mono (changes_request request d) (fun _ _ => Request.Changes.advances) fun _ _ => id

/-- While a temporary record exists, a call changes no content and fails. -/
theorem stuck_request (request : Request) (present : d.temporary ≠ none) :
    Safe (effect trustRenameOutcome) Eq Keeps (fun ended _ => ∀ outcome, ended ≠ .ok outcome)
      (request.program currentUid trustRenameOutcome).run d := by
  have stuck {A : Type} {id : OpaqueId} {s : RecordFiles} (keeps : Keeps d s)
      (next : Option (Identity × JournalRecord) → JournalProgram A) :
      Reads trustRenameOutcome s (fun _ _ => False)
        (do assertHeld; let visible ← readCanonicalRecord currentUid id true none; next visible) := by
    refine (steady_assertHeld).then fun _ s₁ keeps₁ => ?_
    refine reads_readCanonicalRecord.bind fun visible s₂ keeps₂ shown => ?_
    exact absurd ((keeps.trans (keeps₁.trans keeps₂)).missing.mp shown.temporary) present
  have body {operation : JournalProgram Completed} {s : RecordFiles} (keeps : Keeps d s)
      (reads : Reads trustRenameOutcome s (fun _ _ => False) operation) :
      Safe (effect trustRenameOutcome) Eq Keeps (Completes none (fun _ _ => False) d) operation.run s := by
    refine Safe.mono reads (fun _ _ => id) ?_
    rintro (e | completed) after ⟨kept, ends⟩
    · exact Tells.unchanged (kept.content.trans keeps.content) ends
    · exact ends.elim
  have fails : ∀ (ended : Except JournalError Outcome) (after : RecordFiles),
      Concludes none (fun _ _ => False) d ended after → ∀ outcome, ended ≠ .ok outcome := by
    rintro ended after concludes outcome rfl
    exact concludes
  cases request with
  | read operationId =>
      exact Safe.mono (safe_run (fun _ _ => id) (fun s keeps => body keeps (stuck keeps _))
        (fun _ _ ⟨_, never, _⟩ => never) fun _ _ _ never _ => never) (fun _ _ => id) fails
  | transition input requestedState requireAbsent =>
      exact Safe.mono (safe_run (fun _ _ => id) (fun s keeps => body keeps (stuck keeps _))
        (fun _ _ ⟨_, never, _⟩ => never) fun _ _ _ never _ => never) (fun _ _ => id) fails

end Requests

/-! ### Runs -/

/-- The files of a journal directory, by the name of the canonical file. -/
abbrev Directory := JsString → RecordFiles

/-- A call of a run: the files of its operation ID before it, after each of its operations and at its end, and its
result if it did not stop before. A call with invalid options does not reach the directory. -/
inductive CallRecord where
  | refused (call : Call) (error : JournalError)
  | ran (call : Call) (request : Request) (first : RecordFiles) (path : List RecordFiles)
      (result : Option (Except JournalError Outcome)) (last : RecordFiles)

section Runs

variable (currentUid : Nat) (trustRenameOutcome : Bool)

/-- Calls one after the other, from any directory. -/
def system : System Directory CallRecord where
  start _ := True
  step before events after := ∃ call,
    (∃ code, call.request = .error code ∧ after = before ∧ events = [.refused call (journalError code)]) ∨
    ∃ request path result last, call.request = .ok request ∧
      Execution (effect trustRenameOutcome) (request.program currentUid trustRenameOutcome).run
        (before (operationJournalRecordFilename request.operationId)) path result last ∧
      after = Function.update before (operationJournalRecordFilename request.operationId) last ∧
      events = [.ran call request (before (operationJournalRecordFilename request.operationId)) path result last]

/-- The files of a name that a call went through. -/
def CallRecord.files (name : JsString) : CallRecord → List RecordFiles
  | .refused _ _ => []
  | .ran _ request first path _ _ =>
      if operationJournalRecordFilename request.operationId = name then first :: path else []

/-- The files of a name that a run went through. -/
def visited (name : JsString) (trace : List CallRecord) : List RecordFiles := trace.flatMap (CallRecord.files name)

/-- What holds of each call of a run. -/
def CallLaws : CallRecord → Prop
  | .refused _ error => error.commitState = .notCommitted
  | .ran _ request first path result last =>
      (∀ ended, result = some ended → request.Concludes first ended last) ∧
        -- while a temporary record exists, the call changes no content and fails
        (first.temporary ≠ none → (∀ s ∈ path, s.content = first.content) ∧ ∀ outcome, result ≠ some (.ok outcome))

/-- What holds of a run that ends in `directory`. -/
structure JournalLaws (trace : List CallRecord) (directory : Directory) : Prop where
  advances : ∀ operationId, (visited (operationJournalRecordFilename operationId) trace ++
    [directory (operationJournalRecordFilename operationId)]).IsChain Advances
  order : ∀ operationId, (visited (operationJournalRecordFilename operationId) trace ++
    [directory (operationJournalRecordFilename operationId)]).Pairwise Extends
  calls : ∀ event ∈ trace, CallLaws event

variable {currentUid trustRenameOutcome}

theorem callLaws {call : Call} {request : Request} {first last : RecordFiles} {path : List RecordFiles}
    {result : Option (Except JournalError Outcome)}
    (execution : Execution (effect trustRenameOutcome) (request.program currentUid trustRenameOutcome).run first path
      result last) : CallLaws (.ran call request first path result last) := by
  have concludes := (Safe.execution (safe_request request first) execution).2
  refine ⟨concludes, fun present => ?_⟩
  obtain ⟨chain, fails⟩ := Safe.execution (stuck_request request present) execution
  refine ⟨fun s inside => ?_, fun outcome same => fails _ same outcome rfl⟩
  have contents : (first :: path).Pairwise fun a b => b.content = a.content :=
    List.isChain_iff_pairwise.mp (chain.imp fun _ _ keeps => keeps.content)
  exact (List.pairwise_cons.mp contents).1 s inside

theorem Advances.refl (files : RecordFiles) : Advances files files := .inl rfl

instance extendsTrans : IsTrans RecordFiles Extends := ⟨fun _ _ _ => Extends.trans⟩

/-- The files of one name over one more call. -/
theorem chain_step {R : RecordFiles → RecordFiles → Prop} (refl : ∀ files, R files files) {name : JsString}
    {trace : List CallRecord} {before : Directory} {request : Request} {call : Call}
    {path : List RecordFiles} {result : Option (Except JournalError Outcome)} {last : RecordFiles}
    (chain : (visited name trace ++ [before name]).IsChain R)
    (steps : operationJournalRecordFilename request.operationId = name →
      (before (operationJournalRecordFilename request.operationId) :: path).IsChain R)
    (execution : Execution (effect trustRenameOutcome) (request.program currentUid trustRenameOutcome).run
      (before (operationJournalRecordFilename request.operationId)) path result last) :
    (visited name (trace ++ [.ran call request (before (operationJournalRecordFilename request.operationId)) path
      result last]) ++ [Function.update before (operationJournalRecordFilename request.operationId) last name]).IsChain
      R := by
  have whole (event : CallRecord) : visited name (trace ++ [event]) = visited name trace ++ event.files name := by
    rw [visited, List.flatMap_append, List.flatMap_singleton]
    rfl
  rw [whole]
  by_cases own : operationJournalRecordFilename request.operationId = name
  · subst own
    rw [CallRecord.files, if_pos rfl, Function.update_self]
    have joined := chain.append_overlap (steps rfl) (List.cons_ne_nil _ _)
    rw [List.append_assoc, List.singleton_append] at joined
    refine List.isChain_append.mpr ⟨joined, .singleton last, ?_⟩
    rintro x ends y ⟨⟩
    rw [List.getLast?_append, execution.last_eq] at ends
    obtain rfl := Option.some.inj ends
    exact refl last
  · rw [CallRecord.files, if_neg own, List.append_nil, Function.update_of_ne (Ne.symm own)]
    exact chain

/-- In every run, with a fault or a crash at any operation of any call, the canonical records go forward and every
call keeps its laws. -/
theorem Run.journalLaws {trace : List CallRecord} {directory : Directory}
    (run : Run (system currentUid trustRenameOutcome) trace directory) : JournalLaws trace directory := by
  have laws : (∀ name, (visited name trace ++ [directory name]).IsChain Advances) ∧
      ∀ event ∈ trace, CallLaws event := by
    induction run with
    | start _ =>
        refine ⟨fun name => .singleton _, fun event inside => ?_⟩
        cases inside
    | @step trace before events after _ taken ih =>
        obtain ⟨chain, calls⟩ := ih
        obtain ⟨call, ⟨code, -, rfl, rfl⟩ | ⟨request, path, result, last, -, execution, rfl, rfl⟩⟩ := taken
        · constructor
          · intro name
            have whole : visited name (trace ++ [.refused call (journalError code)]) = visited name trace := by
              rw [visited, List.flatMap_append, List.flatMap_singleton]
              exact List.append_nil _
            rw [whole]
            exact chain name
          · intro event inside
            rcases List.mem_append.mp inside with earlier | now
            · exact calls event earlier
            · obtain rfl := List.mem_singleton.mp now
              rfl
        · have safe := ((safe_request request _).execution execution).1
          refine ⟨fun name => chain_step Advances.refl (chain name) (fun _ => safe) execution,
            fun event inside => ?_⟩
          rcases List.mem_append.mp inside with earlier | now
          · exact calls event earlier
          · obtain rfl := List.mem_singleton.mp now
            exact callLaws execution
  exact ⟨fun operationId => laws.1 _, fun operationId =>
    List.isChain_iff_pairwise.mp ((laws.1 _).imp fun _ _ => Advances.extends), laws.2⟩

end Runs

/-! ### A run with a fault -/

/-- Calls for one operation ID, each to its end and with the faults that are injected in it. -/
def runCalls (operationId : OpaqueId) (files : RecordFiles) :
    List (Call × (FaultPoint → Bool)) → List CallRecord × RecordFiles
  | [] => ([], files)
  | (call, fails) :: calls =>
      match call.request with
      | .error code =>
          let rest := runCalls operationId files calls
          (.refused call (journalError code) :: rest.1, rest.2)
      | .ok request =>
          if request.operationId = operationId then
            let ran := (request.program 0 true).run.answered (calmAnswer fails 0) files
            let rest := runCalls operationId ran.2.2 calls
            (.ran call request files ran.1 (some ran.2.1) ran.2.2 :: rest.1, rest.2)
          else ([], files)

/-- A directory with the files of one operation ID. -/
def directoryOf (operationId : OpaqueId) (files : RecordFiles) : Directory :=
  Function.update (fun _ => .empty) (operationJournalRecordFilename operationId) files

theorem run_runCalls {operationId : OpaqueId} {files : RecordFiles} {trace : List CallRecord}
    (run : Run (system 0 true) trace (directoryOf operationId files)) (calls : List (Call × (FaultPoint → Bool))) :
    Run (system 0 true) (trace ++ (runCalls operationId files calls).1)
      (directoryOf operationId (runCalls operationId files calls).2) := by
  induction calls generalizing files trace with
  | nil =>
      rw [runCalls, List.append_nil]
      exact run
  | cons first calls ih =>
      obtain ⟨call, fails⟩ := first
      rw [runCalls]
      cases accepted : call.request with
      | error code =>
          have taken := run.step ⟨call, .inl ⟨code, accepted, rfl, rfl⟩⟩
          dsimp only
          rw [← List.singleton_append, ← List.append_assoc]
          exact ih taken
      | ok request =>
          dsimp only
          split
          · rename_i same
            subst same
            have place : directoryOf request.operationId files (operationJournalRecordFilename request.operationId) = files :=
              Function.update_self _ _ _
            have execution := Execution.answered (calmAnswer_truthful true fails 0) (request.program 0 true).run files
            have taken := @Run.step _ _ (system 0 true) _ _ [.ran call request files _ _ _] _ run
              ⟨call, .inr ⟨request, _, _, _, accepted, place.symm ▸ execution, rfl, by rw [place]⟩⟩
            rw [directoryOf, Function.update_idem, Function.update_self] at taken
            rw [← List.singleton_append, ← List.append_assoc]
            exact ih taken
          · rw [List.append_nil]
            exact run

def sampleUuid : JsValue :=
  .string (List.replicate 8 48 ++ js "-0000-" ++ js "4000-" ++ js "8000-" ++ List.replicate 12 48)

def sampleTarget : JsValue :=
  record [js "artifactId", js "checkpointId", js "kind"]
    [.string (js "a"), .string (js "c"), .string (js "checkpoint")]

def sampleRequest : JsValue :=
  record mutationRequestKeys
    [.string (js "b"), .number (Js.ofNat 1), .string (js "1"), .string (js "h"), .string (js "l"),
      .string (js "checkpoint"), .string (js "o"), sampleUuid, .string (js "s"), sampleTarget]

def sampleMutation : JsValue :=
  record mutationResultKeys
    [.string (js "b"), .number (Js.ofNat 1), .string (js "1"), .string (js "h"), .string (js "l"),
      .string (js "checkpoint"), .string (js "o"), .string (js "p"), sampleUuid, .string (js "checkpoint-created"),
      .string (js "s"), sampleTarget]

def sampleDescriptor : JsValue :=
  record checkpointDescriptorKeys
    [.string (js "a"), .string (js "b"), .string (js "clean"), .string (js "c"), sampleUuid, sampleUuid,
      .number (Js.ofNat 1), .string (js "2026-01-01" ++ js "T00:00:00" ++ js ".000Z"),
      .string (js "sha256:" ++ List.replicate 64 48), sampleUuid,
      .string (js "1"), .string (js "s")]

def sampleOperation : JsValue :=
  record [js "binding", js "operationId", js "request", js "result"]
    [.object [], .string (js "o"), sampleRequest,
      record [js "checkpoint", js "mutation"] [sampleDescriptor, sampleMutation]]

def sampleMaterialized : JsValue :=
  record [js "binding", js "materialization", js "operationId", js "request", js "result"]
    [.object [], .object [(js "kind", .string (js "copy"))], .string (js "o"), sampleRequest,
      record [js "checkpoint", js "mutation"] [sampleDescriptor, sampleMutation]]

theorem sampleOperationId_isOpaqueId : ProviderState.IsOpaqueId (js "o") := by decide

def sampleOperationId : OpaqueId := ⟨js "o", sampleOperationId_isOpaqueId⟩

def noFault : FaultPoint → Bool := fun _ => false

def renameFault : FaultPoint → Bool
  | .afterRename => true
  | _ => false

/-- An operation is prepared with a fault behind the rename, and goes on to its commit. -/
def sampleCalls : List (Call × (FaultPoint → Bool)) :=
  [(.prepareFresh sampleOperation, renameFault), (.markMaterialized sampleMaterialized, noFault),
    (.commit sampleMaterialized, noFault), (.commit sampleMaterialized, noFault)]

/-- What a call shows: the state of its record, or the commit state of its error. -/
def CallRecord.shows : CallRecord → Option (State × Bool) × Option CommitState
  | .ran _ _ _ _ (some (.ok outcome)) _ => (outcome.record.map fun r => (r.state.key, outcome.replayed), none)
  | .ran _ _ _ _ (some (.error e)) _ => (none, some e.commitState)
  | .ran _ _ _ _ none _ => (none, none)
  | .refused _ e => (none, some e.commitState)

theorem sampleCalls_show : (runCalls sampleOperationId .empty sampleCalls).1.map CallRecord.shows =
    [(none, some .uncertain), (some (.materialized, false), none), (some (.committed, false), none),
      (some (.committed, true), none)] := by
  decide +kernel

/-- A prepare that fails behind its rename, then a materialization, a commit and its replay. -/
theorem journalLaws_committed : ∃ trace directory, Run (system 0 true) trace directory ∧
    trace.map CallRecord.shows = [(none, some .uncertain), (some (.materialized, false), none),
      (some (.committed, false), none), (some (.committed, true), none)] ∧
    JournalLaws trace directory := by
  have start : Run (system 0 true) [] (directoryOf sampleOperationId .empty) := .start trivial
  have run := run_runCalls start sampleCalls
  exact ⟨_, _, run, sampleCalls_show, Run.journalLaws run⟩

/-! ### A first read -/

theorem sampleId_isOpaqueId : ProviderState.IsOpaqueId (js "operation") := by decide

def sampleId : OpaqueId := ⟨js "operation", sampleId_isOpaqueId⟩

def sampleRead : Call := .read (.object [(js "operationId", .string (js "operation"))])

theorem sampleRead_request : sampleRead.request = .ok (.read sampleId) := rfl

/-- Reading an ID without files. -/
def firstRead : List RecordFiles × Except JournalError Outcome × RecordFiles :=
  ((Request.read sampleId).program 0 true).run.answered (calmAnswer noFault 0) .empty

theorem firstRead_execution : Execution (effect true) ((Request.read sampleId).program 0 true).run .empty firstRead.1
    (some firstRead.2.1) firstRead.2.2 := Execution.answered (calmAnswer_truthful true noFault 0) _ _

theorem firstRead_result : firstRead.2.1 = .ok { record := none, replayed := false } := rfl

/-- A read returns `replayed: false` although it installs nothing. -/
theorem installed_refuted : ¬ ∀ (call : Call) (request : Request) (d last : RecordFiles) (path : List RecordFiles)
    (outcome : Outcome), call.request = .ok request →
    Execution (effect true) (request.program 0 true).run d path (some (.ok outcome)) last → outcome.replayed = false →
    ∃ r, outcome.record = some r ∧ last.content = some r.bytes ∧ last.Durable := by
  intro installs
  have execution := firstRead_execution
  rw [firstRead_result] at execution
  obtain ⟨r, shown, -⟩ := installs sampleRead _ _ _ _ _ sampleRead_request execution rfl
  cases shown

end PortableCodex.Journal
