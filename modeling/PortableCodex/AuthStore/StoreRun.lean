import PortableCodex.AuthStore.StoreLaws
import PortableCodex.Traces.Run

/-!
Runs of the auth state store.

The calls of a run follow one another, as the lock makes them, and each can stop at any operation. The
canonical records of a run form a chain (`Advances`), and each call keeps its word about what it did
(`CallLaws`).
-/

namespace PortableCodex.AuthStore

open Js ProviderState Traces

variable {Key A : Type}

section Calls

variable {cipher : Cipher Key} {authorityId : OpaqueId} {keys : OpaqueId → Key} {brokerUid : Option Nat} {calm : Bool}

/-! ### Plans -/

/-- `r` is the record that the call asks for. -/
def Call.Wrote : Call → StoreRecord → Prop
  | .read, _ => False
  | .compareAndSwap expectedGeneration commitId payload, r =>
      expectedGeneration = uint64Json r.baseGeneration ∧ commitId = textJson r.commitId ∧
        payload = textJson r.payload ∧ r.operation = .compareAndSwap
  | .rotateEncryption expectedGeneration commitId, r =>
      expectedGeneration = uint64Json r.baseGeneration ∧ commitId = textJson r.commitId ∧
        r.operation = .rotateEncryption

/-- `r` continues the record read before. -/
def Continues (current : Option (StoreRecord × OpaqueId)) (r : StoreRecord) : Prop :=
  (current = none ∧ r.baseGeneration.val = 0 ∧ r.operation = .compareAndSwap) ∨
    ∃ read, current = some read ∧ r.baseGeneration = read.1.generation ∧
      (r.operation = .rotateEncryption → r.payload = read.1.payload)

theorem Continues.follows {current : Option (StoreRecord × OpaqueId)} {r : StoreRecord} {d : Directory}
    (continues : Continues current r) (held : Current cipher authorityId keys current d) :
    Follows cipher authorityId keys d r := by
  rcases continues with ⟨rfl, first⟩ | ⟨read, rfl, next⟩
  · exact .inl ⟨held.2 rfl, first⟩
  · exact .inr ⟨read, held.1, next⟩

/-- What a plan may be for a call. -/
def Plan.For (call : Call) (current : Option (StoreRecord × OpaqueId)) : Plan → Prop
  | .replay read => current = some read ∧ call.Wrote read.1
  | .commit next => call.Wrote next ∧ Continues current next

theorem ensure_bind_ok {p : Prop} [Decidable p] {refusal : Refusal} {next : Unit → Except Refusal A} {a : A} :
    (ensure p refusal >>= next) = .ok a ↔ p ∧ next () = .ok a := by
  by_cases holds : p
  · rw [ensure, if_pos holds]
    exact (and_iff_right holds).symm
  · rw [ensure, if_neg holds]
    constructor
    · intro thrown
      cases thrown
    · intro passed
      exact absurd passed.1 holds

theorem nextRecord_bind_ok {current : Generation} {commitId : OpaqueId} {operation : Operation} {payload : Payload}
    {plan : Plan}
    (h : (nextRecord current commitId operation payload >>= fun next => Except.ok (Plan.commit next)) = .ok plan) :
    ∃ next, plan = .commit next ∧ next.baseGeneration = current ∧ next.commitId = commitId ∧
      next.operation = operation ∧ next.payload = payload := by
  unfold nextRecord at h
  split at h
  · exact ⟨_, (Except.ok.inj h).symm, rfl, rfl, rfl, rfl⟩
  · cases h

theorem planCompareAndSwap_for {expectedGeneration : Generation} {commitId : OpaqueId} {payload : Payload}
    {current : Option (StoreRecord × OpaqueId)} {plan : Plan}
    (h : planCompareAndSwap expectedGeneration commitId payload current = .ok plan) :
    plan.For (.compareAndSwap (uint64Json expectedGeneration) (textJson commitId) (textJson payload)) current := by
  unfold planCompareAndSwap at h
  split at h
  · rename_i read same
    obtain ⟨rfl, named⟩ := Option.filter_eq_some_iff.mp same
    obtain ⟨⟨operation, content⟩, rest⟩ := ensure_bind_ok.mp h
    obtain ⟨base, last⟩ := ensure_bind_ok.mp rest
    obtain rfl := Except.ok.inj last
    exact ⟨rfl, by rw [base], by rw [of_decide_eq_true named], by rw [content], operation⟩
  · obtain ⟨expected, rest⟩ := ensure_bind_ok.mp h
    obtain ⟨next, rfl, base, rfl, operation, rfl⟩ := nextRecord_bind_ok rest
    refine ⟨⟨by rw [base, expected], rfl, rfl, operation⟩, ?_⟩
    cases current with
    | none => exact .inl ⟨rfl, congrArg Subtype.val base, operation⟩
    | some read => exact .inr ⟨read, rfl, base, fun rotation => nomatch operation.symm.trans rotation⟩

theorem planRotateEncryption_for {expectedGeneration : Generation} {commitId : OpaqueId}
    {current : Option (StoreRecord × OpaqueId)} {plan : Plan}
    (h : planRotateEncryption expectedGeneration commitId current = .ok plan) :
    plan.For (.rotateEncryption (uint64Json expectedGeneration) (textJson commitId)) current := by
  cases current with
  | none => cases h
  | some read =>
      unfold planRotateEncryption at h
      dsimp only at h
      split at h
      · rename_i named
        obtain ⟨operation, rest⟩ := ensure_bind_ok.mp h
        obtain ⟨base, last⟩ := ensure_bind_ok.mp rest
        obtain rfl := Except.ok.inj last
        exact ⟨rfl, by rw [base], by rw [named], operation⟩
      · obtain ⟨expected, rest⟩ := ensure_bind_ok.mp h
        obtain ⟨next, rfl, base, rfl, operation, payload⟩ := nextRecord_bind_ok rest
        exact ⟨⟨by rw [base, expected], rfl, operation⟩, .inr ⟨read, rfl, base, fun _ => payload⟩⟩

/-- A call whose record is the current one is a replay of it. -/
theorem planCompareAndSwap_replay {read : StoreRecord × OpaqueId} (operation : read.1.operation = .compareAndSwap) :
    planCompareAndSwap read.1.baseGeneration read.1.commitId read.1.payload (some read) = .ok (.replay read) := by
  unfold planCompareAndSwap
  rw [Option.filter_some, if_pos (decide_eq_true rfl)]
  exact ensure_bind_ok.mpr ⟨⟨operation, rfl⟩, ensure_bind_ok.mpr ⟨rfl, rfl⟩⟩

theorem planRotateEncryption_replay {read : StoreRecord × OpaqueId} (operation : read.1.operation = .rotateEncryption) :
    planRotateEncryption read.1.baseGeneration read.1.commitId (some read) = .ok (.replay read) :=
  (if_pos rfl).trans (ensure_bind_ok.mpr ⟨operation, ensure_bind_ok.mpr ⟨rfl, rfl⟩⟩)

/-! ### Transactions -/

/-- How the transaction of a call ends. -/
def Outcomes (cipher : Cipher Key) (authorityId : OpaqueId) (keys : OpaqueId → Key) (call : Call)
    (before : Directory) (outcome : Outcome) (after : Directory) : Prop :=
  (outcome.committed = false ∧ after = before ∧ ∃ read, canonicalRecord cipher authorityId keys before = some read ∧
      call.Wrote read.1 ∧ outcome.value = some (resultFromRecord read true)) ∨
    (outcome.committed = true ∧ ∃ read, canonicalRecord cipher authorityId keys after = some read ∧
      Follows cipher authorityId keys before read.1 ∧ call.Wrote read.1 ∧
      outcome.value = some (resultFromRecord read false))

theorem safe_transact {call : Call} {allowMissing : Bool}
    {plan : Option (StoreRecord × OpaqueId) → Except Refusal Plan}
    (lawful : ∀ current planned, plan current = .ok planned → planned.For call current) (d : Directory) :
    Safe (effect keys brokerUid calm) Eq (Advances cipher authorityId keys)
      (Reports d.canonical (Outcomes cipher authorityId keys call d))
      (transact cipher authorityId brokerUid allowMissing plan).run d := by
  have early : ∀ e : Thrown, e.commitState ≠ some .committed →
      Reports d.canonical (Outcomes cipher authorityId keys call d) (.error e) d := fun e state => ⟨state, fun _ => rfl⟩
  refine (settles_assertNoRecoveryArtifacts.mono nofun fun _ _ => id).before (fun _ _ => ?_) early
  refine settles_assertHeld.before (fun _ _ => ?_) early
  refine ((settles_readCanonical allowMissing).mono nofun fun _ _ => id).before ?_ early
  rintro current ⟨held, -⟩
  refine (Settles.check fun _ _ => False.elim).before ?_ early
  intro planned chosen
  cases planned with
  | replay read =>
      obtain ⟨rfl, wrote⟩ := lawful _ _ chosen
      refine settles_proveDirectoryDurable.before (fun _ _ => ?_) early
      exact .inl ⟨rfl, rfl, read, held.1, wrote, rfl⟩
  | commit next =>
      obtain ⟨wrote, continues⟩ := lawful _ _ chosen
      have follows := continues.follows held
      refine Safe.bindExcept (safe_commit follows) ?_ fun e s ends => ends
      rintro committed after ⟨rfl, installed⟩
      exact .inr ⟨rfl, committed, installed, follows, wrote, rfl⟩

/-- A transaction that only reads the current record: it changes nothing, and in calm surroundings it ends with
what the record is worth. -/
def Still (calm : Bool) (d : Directory) (clean : Prop) (value : Outcome) (ended : Except Thrown Outcome)
    (after : Directory) : Prop :=
  after = d ∧ (∀ outcome, ended = .ok outcome → outcome = value ∧ d.NoCandidates) ∧
    ∀ e, ended = .error e → e.commitState ≠ some .committed ∧ (calm = true → ¬ (clean ∧ d.NoCandidates))

theorem Still.thrown {d : Directory} {clean : Prop} {value : Outcome} {e : Thrown}
    (state : e.commitState ≠ some .committed) (disturbed : calm = true → ¬ (clean ∧ d.NoCandidates)) :
    Still calm d clean value (.error e) d := by
  refine ⟨rfl, nofun, ?_⟩
  rintro _ ⟨⟩
  exact ⟨state, disturbed⟩

theorem still_transact {allowMissing : Bool} {plan : Option (StoreRecord × OpaqueId) → Except Refusal Plan}
    {read : StoreRecord × OpaqueId} {d : Directory} (held : canonicalRecord cipher authorityId keys d = some read)
    (replays : plan (some read) = .ok (.replay read)) :
    Safe (effect keys brokerUid calm) Eq Eq
      (Still calm d True { committed := false, value := some (resultFromRecord read true) })
      (transact cipher authorityId brokerUid allowMissing plan).run d := by
  refine settles_assertNoRecoveryArtifacts.then (fun _ => rfl) (fun _ none => ?_) fun e state disturbed =>
    Still.thrown state fun still clean => disturbed still clean.2
  refine settles_assertHeld.step (fun _ => rfl) ?_ fun e state disturbed =>
    Still.thrown state fun still _ => disturbed still
  refine (settles_readCanonical allowMissing).then (fun _ => rfl) ?_ fun e state disturbed =>
    Still.thrown state fun still _ => disturbed still (.inr ⟨read, held⟩)
  rintro current ⟨⟨same, -⟩, -⟩
  obtain rfl : some read = current := held.symm.trans same
  rw [replays]
  refine settles_proveDirectoryDurable.step (fun _ => rfl) ?_ fun e state disturbed =>
    Still.thrown state fun still _ => disturbed still
  refine ⟨rfl, ?_, nofun⟩
  rintro _ ⟨⟩
  exact ⟨rfl, none⟩

theorem still_readCurrent (d : Directory) :
    Safe (effect keys brokerUid calm) Eq Eq
      (Still calm d (d.canonical = none ∨ ∃ read, canonicalRecord cipher authorityId keys d = some read)
        { committed := false,
          value := (canonicalRecord cipher authorityId keys d).map fun read => resultFromRecord read false })
      (readCurrent cipher authorityId brokerUid).run d := by
  refine settles_assertNoRecoveryArtifacts.then (fun _ => rfl) (fun _ none => ?_) fun e state disturbed =>
    Still.thrown state fun still clean => disturbed still clean.2
  refine settles_assertHeld.step (fun _ => rfl) ?_ fun e state disturbed =>
    Still.thrown state fun still _ => disturbed still
  refine (settles_readCanonical true).then (fun _ => rfl) ?_ fun e state disturbed =>
    Still.thrown state fun still clean => disturbed still (clean.1.imp_left fun missing => ⟨rfl, missing⟩)
  rintro current ⟨⟨rfl, -⟩, -⟩
  refine settles_proveDirectoryDurable.step (fun _ => rfl) ?_ fun e state disturbed =>
    Still.thrown state fun still _ => disturbed still
  refine ⟨rfl, ?_, nofun⟩
  rintro _ ⟨⟩
  exact ⟨rfl, none⟩

/-- With a promotion candidate left behind, no transaction gets past its first check. -/
theorem refused_of_candidate {part : StoreProgram Key Outcome} {d : Directory} (candidate : ¬ d.NoCandidates) :
    Safe (effect keys brokerUid calm) Eq Eq
      (fun ended after => after = d ∧ ∃ e : Thrown, ended = .error e ∧ e.commitState ≠ some .committed)
      (do assertNoRecoveryArtifacts; part : StoreProgram Key Outcome).run d :=
  settles_assertNoRecoveryArtifacts.then (fun _ => rfl) (fun _ none => absurd none candidate) fun e state _ =>
    ⟨rfl, e, rfl, state⟩

/-- What a transaction makes of the end of its operation. -/
theorem safe_withTransaction {guarantee : Directory → Directory → Prop} (reflexive : ∀ s, guarantee s s)
    {mutation : Bool} {operation : StoreProgram Key Outcome} {d : Directory}
    {ends : Except Thrown Outcome → Directory → Prop} {last : Except StoreError (Option Result) → Directory → Prop}
    (body : Safe (effect keys brokerUid calm) Eq guarantee ends operation.run d)
    (checks : ∀ e : Thrown, e.commitState ≠ some .committed → calm ≠ true → ends (.error e) d)
    (refused : ∀ e : StoreError, e.commitState ≠ some .committed → calm ≠ true → last (.error e) d)
    (returned : ∀ outcome after, ends (.ok outcome) after → last (.ok outcome.value) after)
    (thrown : ∀ e after, ends (.error e) after → last (.error (wrapExternalError e .notRenamed)) after)
    (held : ∀ ended after, ends ended after → calm ≠ true → last (.error (lockReleaseFailed (releaseCommitState mutation
      (ended.mapError fun e => wrapExternalError e .notRenamed)))) after) :
    Safe (effect keys brokerUid calm) Eq guarantee last (withTransaction mutation operation).run d := by
  rintro _ rfl opened after ⟨effected, still⟩
  obtain rfl := effected.still rfl
  refine ⟨reflexive after, ?_⟩
  cases opened with
  | false => exact refused _ (by exact nofun) fun calmly => nomatch still calmly
  | true =>
  rintro _ rfl locked after' ⟨effected, still⟩
  obtain rfl := effected.still rfl
  refine ⟨reflexive after', ?_⟩
  cases locked with
  | error error => exact refused _ (commitState_external error) fun calmly => nomatch still calmly
  | ok _ =>
  have ran : Safe (effect keys brokerUid calm) Eq guarantee ends
      (do assertDirectoryCurrent; operation : StoreProgram Key Outcome).run after' :=
    settles_assertDirectoryCurrent.step reflexive body checks
  have lifted : Safe (effect keys brokerUid calm) Eq guarantee (fun r s => ∃ ended, r = .ok ended ∧ ends ended s)
      (ExceptT.lift (do assertDirectoryCurrent; operation : StoreProgram Key Outcome).run :
        Fallible StoreOp (StoreAnswer Key) StoreError (Except Thrown Outcome)).run after' :=
    Safe.bind ran fun ended s holds => ⟨ended, rfl, holds⟩
  refine Safe.bindExcept lifted ?_ fun e s ⟨_, same, _⟩ => nomatch same
  rintro ended finished ⟨_, ⟨⟩, holds⟩ _ rfl released after'' ⟨effected, still⟩
  obtain rfl := effected.still rfl
  refine ⟨reflexive after'', ?_⟩
  cases released with
  | false => exact held ended after'' holds fun calmly => nomatch still calmly
  | true =>
      cases ended with
      | ok outcome => exact returned outcome after'' holds
      | error e => exact thrown e after'' holds

/-! ### Calls -/

/-- How a call ends: what it returns, and what its errors say of the canonical file. -/
def CallEnds (cipher : Cipher Key) (authorityId : OpaqueId) (keys : OpaqueId → Key) (call : Call)
    (before : Directory) : Except StoreError (Option Result) → Directory → Prop
  | .ok value, after =>
      (call = .read ∧ after = before ∧
        value = (canonicalRecord cipher authorityId keys before).map fun read => resultFromRecord read false) ∨
      (after = before ∧ ∃ read, canonicalRecord cipher authorityId keys before = some read ∧ call.Wrote read.1 ∧
        value = some (resultFromRecord read true)) ∨
      ∃ read, canonicalRecord cipher authorityId keys after = some read ∧
        Follows cipher authorityId keys before read.1 ∧ call.Wrote read.1 ∧ value = some (resultFromRecord read false)
  | .error error, after =>
      (error.commitState = some .notCommitted → after.canonical = before.canonical) ∧
      (error.commitState = some .committed → after.canonical ≠ before.canonical ∧
        ∃ read, canonicalRecord cipher authorityId keys after = some read ∧
          Follows cipher authorityId keys before read.1 ∧ call.Wrote read.1)

/-- A record that follows what was in the directory is not what was there. -/
theorem Follows.changes {before after : Directory} {read : StoreRecord × OpaqueId}
    (follows : Follows cipher authorityId keys before read.1)
    (installed : canonicalRecord cipher authorityId keys after = some read) : after.canonical ≠ before.canonical := by
  intro same
  have here : canonicalRecord cipher authorityId keys before = some read := by
    rwa [canonicalRecord, ← same]
  rcases follows with ⟨missing, -⟩ | ⟨old, held, next, -⟩
  · rw [canonicalRecord, missing] at here
    cases here
  · obtain rfl := Option.some.inj (held.symm.trans here)
    have succeeds := old.1.succeeds
    rw [next] at succeeds
    omega

theorem safe_argument {value : Except Refusal A} {next : A → Fallible StoreOp (StoreAnswer Key) StoreError (Option Result)}
    {guarantee : Directory → Directory → Prop} {last : Except StoreError (Option Result) → Directory → Prop}
    {d : Directory} (ok : ∀ a, value = .ok a → Safe (effect keys brokerUid calm) Eq guarantee last (next a).run d)
    (refused : ∀ refusal : Refusal, value = .error refusal → last (.error refusal.val) d) :
    Safe (effect keys brokerUid calm) Eq guarantee last (argument value >>= next).run d := by
  cases value with
  | ok a => exact ok a rfl
  | error refusal => exact refused refusal rfl

theorem releaseCommitState_error (mutation : Bool) (error : StoreError) :
    releaseCommitState mutation (.error error) =
      if error.commitState = some .uncertain then .uncertain else .notCommitted := by
  obtain ⟨code, message, state, retryable⟩ := error
  cases state with
  | none => rfl
  | some state => cases state <;> rfl

theorem releaseCommitState_ok (mutation : Bool) (outcome : Outcome) :
    releaseCommitState mutation (.ok outcome) =
      if mutation = true ∧ outcome.committed = true then .committed else .notCommitted := rfl

/-- A failed release that reports no commit. -/
theorem released_notCommitted {ended : Except Thrown Outcome}
    (release : releaseCommitState true (ended.mapError fun e => wrapExternalError e .notRenamed) = .notCommitted) :
    (∃ outcome, ended = .ok outcome ∧ outcome.committed = false) ∨
      ∃ e, ended = .error e ∧ e.commitState ≠ some .uncertain := by
  cases ended with
  | ok outcome =>
      rw [Except.mapError, releaseCommitState_ok] at release
      split at release
      · cases release
      · rename_i plain
        exact .inl ⟨outcome, rfl, Bool.eq_false_iff.mpr fun committed => plain ⟨rfl, committed⟩⟩
  | error e =>
      rw [Except.mapError, releaseCommitState_error] at release
      split at release
      · cases release
      · rename_i certain
        exact .inr ⟨e, rfl, certain⟩

/-- A failed release that reports a commit. -/
theorem released_committed {mutation : Bool} {ended : Except Thrown Outcome}
    (release : releaseCommitState mutation (ended.mapError fun e => wrapExternalError e .notRenamed) = .committed) :
    mutation = true ∧ ∃ outcome, ended = .ok outcome ∧ outcome.committed = true := by
  cases ended with
  | ok outcome =>
      rw [Except.mapError, releaseCommitState_ok] at release
      split at release
      · rename_i changed
        exact ⟨changed.1, outcome, rfl, changed.2⟩
      · cases release
  | error e =>
      rw [Except.mapError, releaseCommitState_error] at release
      split at release <;> cases release

theorem safe_mutation {call : Call} {allowMissing : Bool}
    {plan : Option (StoreRecord × OpaqueId) → Except Refusal Plan}
    (lawful : ∀ current planned, plan current = .ok planned → planned.For call current) (d : Directory) :
    Safe (effect keys brokerUid calm) Eq (Advances cipher authorityId keys) (CallEnds cipher authorityId keys call d)
      (withTransaction true (transact cipher authorityId brokerUid allowMissing plan)).run d := by
  refine safe_withTransaction Advances.refl (safe_transact lawful d) ?_ ?_ ?_ ?_ ?_
  · exact fun e state _ => ⟨state, fun _ => rfl⟩
  · exact fun e state _ => ⟨fun _ => rfl, fun committed => absurd committed state⟩
  · rintro outcome after (⟨-, same, replayed⟩ | ⟨-, installed⟩)
    · exact .inr (.inl ⟨same, replayed⟩)
    · exact .inr (.inr installed)
  · rintro e after ⟨state, certain⟩
    refine ⟨fun told => certain fun doubted => ?_, fun told => absurd told state⟩
    rw [Thrown.commitState, told] at doubted
    cases doubted
  · rintro ended after reports -
    refine ⟨fun told => ?_, fun told => ?_⟩
    · rcases released_notCommitted (Option.some.inj told) with ⟨outcome, rfl, plain⟩ | ⟨e, rfl, certain⟩
      · rcases reports with ⟨-, rfl, -⟩ | ⟨changed, -⟩
        · rfl
        · cases plain.symm.trans changed
      · exact reports.2 certain
    · obtain ⟨-, outcome, rfl, changed⟩ := released_committed (Option.some.inj told)
      rcases reports with ⟨plain, -⟩ | ⟨-, read, installed, follows, wrote, -⟩
      · cases plain.symm.trans changed
      · exact ⟨follows.changes installed, read, installed, follows, wrote⟩

theorem safe_read (d : Directory) :
    Safe (effect keys brokerUid calm) Eq Eq
      (fun ended after => CallEnds cipher authorityId keys .read d ended after ∧ (calm = true →
        (d.canonical = none ∨ ∃ read, canonicalRecord cipher authorityId keys d = some read) → d.NoCandidates →
          ∃ value, ended = .ok value))
      (withTransaction false (readCurrent cipher authorityId brokerUid)).run d := by
  refine safe_withTransaction (fun _ => rfl) (still_readCurrent d) ?_ ?_ ?_ ?_ ?_
  · exact fun e state disturbed => Still.thrown state fun calmly => absurd calmly disturbed
  · exact fun e state disturbed => ⟨⟨fun _ => rfl, fun told => absurd told state⟩, fun calmly => absurd calmly disturbed⟩
  · rintro outcome after ⟨rfl, returned, -⟩
    obtain ⟨rfl, -⟩ := returned outcome rfl
    exact ⟨.inl ⟨rfl, rfl, rfl⟩, fun _ _ _ => ⟨_, rfl⟩⟩
  · rintro e after ⟨rfl, -, thrown⟩
    obtain ⟨state, disturbed⟩ := thrown e rfl
    exact ⟨⟨fun _ => rfl, fun told => absurd told state⟩, fun calmly clean none => absurd ⟨clean, none⟩ (disturbed calmly)⟩
  · rintro ended after ⟨rfl, -, -⟩ disturbed
    refine ⟨⟨fun _ => rfl, fun told => ?_⟩, fun calmly => absurd calmly disturbed⟩
    cases (released_committed (Option.some.inj told)).1

theorem found_eq_ok {value : Option A} {refusal : Refusal} {a : A} (h : found value refusal = .ok a) :
    value = some a := by
  cases value with
  | none => cases h
  | some b => exact congrArg some (Except.ok.inj h)

theorem validateOpaqueId_ok {value : JsValue} {code : ErrorCode} {label : String} {id : OpaqueId}
    (h : validateOpaqueId value code label = .ok id) : value = textJson id := by
  have read := found_eq_ok h
  cases value with
  | string s =>
      simp only [canonicalOpaqueId, checkedText] at read
      split at read
      · obtain rfl := Option.some.inj read
        rfl
      · cases read
  | _ => cases read

theorem validatePayload_ok {value : JsValue} {payload : Payload} (h : validatePayload value = .ok payload) :
    value = textJson payload := by
  cases value with
  | string s =>
      rw [validatePayload] at h
      split at h
      · obtain rfl := Except.ok.inj h
        rfl
      · cases h
  | _ => cases h

theorem parseGeneration_ok {value : JsValue} {allowZero : Bool} {g : Generation}
    (h : parseGeneration value allowZero = .ok g) : value = uint64Json g := by
  rw [parseGeneration] at h
  cases text : uint64Text value with
  | none =>
      rw [text] at h
      cases h
  | some n =>
      rw [text] at h
      change (if _ : n < 2 ^ 64 then _ else _) = _ at h
      split at h
      · obtain ⟨-, same⟩ := ensure_bind_ok.mp h
        obtain rfl := Except.ok.inj same
        exact uint64Text_eq_some text
      · cases h

/-- A call advances the chain of canonical records by at most its own record, and keeps its word. -/
theorem safe_call (call : Call) (d : Directory) :
    Safe (effect keys brokerUid calm) Eq (Advances cipher authorityId keys) (CallEnds cipher authorityId keys call d)
      (call.program cipher authorityId brokerUid).run d := by
  have refused (refusal : Refusal) : CallEnds cipher authorityId keys call d (.error refusal.val) d :=
    ⟨fun _ => rfl, fun told => nomatch refusal.property.symm.trans told⟩
  cases call with
  | read =>
      exact (safe_read d).mono (fun s _ same => same ▸ Advances.refl s) fun _ _ => And.left
  | compareAndSwap expectedGeneration commitId payload =>
      refine safe_argument (fun id named => ?_) fun refusal _ => refused refusal
      refine safe_argument (fun content exact => ?_) fun refusal _ => refused refusal
      refine safe_argument (fun expected parsed => ?_) fun refusal _ => refused refusal
      obtain rfl := validateOpaqueId_ok named
      obtain rfl := validatePayload_ok exact
      obtain rfl := parseGeneration_ok parsed
      exact safe_mutation (fun _ _ => planCompareAndSwap_for) d
  | rotateEncryption expectedGeneration commitId =>
      refine safe_argument (fun id named => ?_) fun refusal _ => refused refusal
      refine safe_argument (fun expected parsed => ?_) fun refusal _ => refused refusal
      obtain rfl := validateOpaqueId_ok named
      obtain rfl := parseGeneration_ok parsed
      exact safe_mutation (fun _ _ => planRotateEncryption_for) d

theorem stuck_transaction {mutation : Bool} {part : StoreProgram Key Outcome} {d : Directory}
    (candidate : ¬ d.NoCandidates) :
    Safe (effect keys brokerUid calm) Eq Eq (fun ended _ => ∀ value, ended ≠ .ok value)
      (withTransaction mutation (do assertNoRecoveryArtifacts; part)).run d := by
  refine safe_withTransaction (fun _ => rfl) (refused_of_candidate candidate) ?_ ?_ ?_ ?_ ?_
  · exact fun e state _ => ⟨rfl, e, rfl, state⟩
  · exact fun e _ _ => nofun
  · rintro outcome after ⟨-, e, ⟨⟩, -⟩
  · exact fun e after _ => nofun
  · exact fun ended after _ _ => nofun

/-- While a promotion candidate remains, a call changes nothing and fails. -/
theorem stuck_call (call : Call) {d : Directory} (candidate : ¬ d.NoCandidates) :
    Safe (effect keys brokerUid calm) Eq Eq (fun ended _ => ∀ value, ended ≠ .ok value)
      (call.program cipher authorityId brokerUid).run d := by
  cases call with
  | read => exact stuck_transaction candidate
  | compareAndSwap expectedGeneration commitId payload =>
      refine safe_argument (fun id _ => ?_) fun refusal _ => nofun
      refine safe_argument (fun content _ => ?_) fun refusal _ => nofun
      refine safe_argument (fun expected _ => ?_) fun refusal _ => nofun
      exact stuck_transaction candidate
  | rotateEncryption expectedGeneration commitId =>
      refine safe_argument (fun id _ => ?_) fun refusal _ => nofun
      refine safe_argument (fun expected _ => ?_) fun refusal _ => nofun
      exact stuck_transaction candidate

/-- How a repeated call ends: with the current record, and in calm surroundings it does end so. -/
def Replays (calm : Bool) (read : StoreRecord × OpaqueId) (d : Directory)
    (ended : Except StoreError (Option Result)) : Prop :=
  (∀ value, ended = .ok value → value = some (resultFromRecord read true)) ∧
    (calm = true → d.NoCandidates → ended = .ok (some (resultFromRecord read true)))

theorem replay_transaction {allowMissing : Bool} {plan : Option (StoreRecord × OpaqueId) → Except Refusal Plan}
    {read : StoreRecord × OpaqueId} {d : Directory} (held : canonicalRecord cipher authorityId keys d = some read)
    (replays : plan (some read) = .ok (.replay read)) :
    Safe (effect keys brokerUid calm) Eq Eq (fun ended _ => Replays calm read d ended)
      (withTransaction true (transact cipher authorityId brokerUid allowMissing plan)).run d := by
  refine safe_withTransaction (fun _ => rfl) (still_transact held replays) ?_ ?_ ?_ ?_ ?_
  · exact fun e state disturbed => Still.thrown state fun calmly => absurd calmly disturbed
  · exact fun e _ disturbed => ⟨nofun, fun calmly => absurd calmly disturbed⟩
  · rintro outcome after ⟨-, returned, -⟩
    obtain ⟨rfl, -⟩ := returned outcome rfl
    refine ⟨?_, fun _ _ => rfl⟩
    rintro _ ⟨⟩
    rfl
  · rintro e after ⟨-, -, thrown⟩
    exact ⟨nofun, fun calmly none => absurd ⟨trivial, none⟩ ((thrown e rfl).2 calmly)⟩
  · exact fun ended after _ disturbed => ⟨nofun, fun calmly => absurd calmly disturbed⟩

/-- A call whose record is the current one changes nothing. -/
theorem replay_call {call : Call} {read : StoreRecord × OpaqueId} {d : Directory}
    (held : canonicalRecord cipher authorityId keys d = some read) (wrote : call.Wrote read.1) :
    Safe (effect keys brokerUid calm) Eq Eq (fun ended _ => Replays calm read d ended)
      (call.program cipher authorityId brokerUid).run d := by
  cases call with
  | read => exact wrote.elim
  | compareAndSwap expectedGeneration commitId payload =>
      obtain ⟨rfl, rfl, rfl, operation⟩ := wrote
      rw [Call.program, compareAndSwap, validateOpaqueId_json, validatePayload_json,
        parseGeneration_json _ (.inl rfl)]
      exact replay_transaction held (planCompareAndSwap_replay operation)
  | rotateEncryption expectedGeneration commitId =>
      obtain ⟨rfl, rfl, operation⟩ := wrote
      rw [Call.program, rotateEncryption, validateOpaqueId_json, parseGeneration_json _ (.inl rfl)]
      exact replay_transaction held (planRotateEncryption_replay operation)

end Calls

/-! ### Runs -/

/-- A call of a run: the directory before it, after each of its operations and at its end, and its result if it
did not stop before. -/
structure CallRecord where
  call : Call
  first : Directory
  path : List Directory
  result : Option (Except StoreError (Option Result))
  last : Directory

section Runs

variable (cipher : Cipher Key) (authorityId : OpaqueId) (keys : OpaqueId → Key) (brokerUid : Option Nat)

/-- Calls one after the other, from any directory. -/
def system : System Directory CallRecord where
  start _ := True
  step before events after := ∃ call path result,
    Execution (effect keys brokerUid false) (call.program cipher authorityId brokerUid).run before path result after ∧
      events = [⟨call, before, path, result, after⟩]

/-- The directories that a run went through. -/
def visited (trace : List CallRecord) : List Directory := trace.flatMap fun event => event.first :: event.path

/-- What holds of each call of a run. -/
structure CallLaws (event : CallRecord) : Prop where
  ends : ∀ ended, event.result = some ended →
    CallEnds cipher authorityId keys event.call event.first ended event.last
  /-- While a promotion candidate remains, the call changes nothing and fails. -/
  stuck : ¬ event.first.NoCandidates →
    (∀ d ∈ event.path, d = event.first) ∧ ∀ value, event.result ≠ some (.ok value)
  /-- A call whose record is the current one writes nothing and returns that record. -/
  replays : ∀ read, canonicalRecord cipher authorityId keys event.first = some read → event.call.Wrote read.1 →
    (∀ d ∈ event.path, d = event.first) ∧
      ∀ value, event.result = some (.ok value) → value = some (resultFromRecord read true)

/-- What holds of a run of calls that ends in `d`. -/
structure StoreLaws (trace : List CallRecord) (d : Directory) : Prop where
  chain : (visited trace ++ [d]).IsChain (Advances cipher authorityId keys)
  calls : ∀ event ∈ trace, CallLaws cipher authorityId keys event
  /-- Where no operation fails, repeating the call of the current record does return it. -/
  returns : ∀ (call : Call) read, canonicalRecord cipher authorityId keys d = some read → call.Wrote read.1 →
    d.NoCandidates →
    (∃ path ended last, Execution (effect keys brokerUid true) (call.program cipher authorityId brokerUid).run d path
      (some ended) last) ∧
    ∀ path ended last, Execution (effect keys brokerUid true) (call.program cipher authorityId brokerUid).run d path
      (some ended) last → ended = .ok (some (resultFromRecord read true)) ∧ last = d

variable {cipher authorityId keys brokerUid}

/-- A program that leaves the directory as it is. -/
theorem unchanged_of_chain {d last : Directory} {path : List Directory} (chain : List.IsChain Eq (d :: path))
    (ends : (d :: path).getLast? = some last) : (∀ s ∈ path, s = d) ∧ last = d := by
  have same : ∀ s ∈ path, s = d := fun s inside => (chain.rel_cons inside).symm
  refine ⟨same, ?_⟩
  rcases List.mem_cons.mp (List.mem_of_getLast? ends) with first | inside
  · exact first
  · exact same last inside

theorem callLaws {call : Call} {d last : Directory} {path : List Directory}
    {result : Option (Except StoreError (Option Result))}
    (execution : Execution (effect keys brokerUid false) (call.program cipher authorityId brokerUid).run d path result
      last) : CallLaws cipher authorityId keys ⟨call, d, path, result, last⟩ where
  ends ended same := ((safe_call call d).execution execution).2 ended same
  stuck candidate := by
    obtain ⟨chain, ends⟩ := (stuck_call call candidate).execution execution
    exact ⟨(unchanged_of_chain chain execution.last_eq).1, fun value same => ends _ same value rfl⟩
  replays read held wrote := by
    obtain ⟨chain, ends⟩ := (replay_call held wrote).execution execution
    exact ⟨(unchanged_of_chain chain execution.last_eq).1, fun value same => (ends _ same).1 value rfl⟩

theorem returns_current {call : Call} {read : StoreRecord × OpaqueId} {d : Directory}
    (held : canonicalRecord cipher authorityId keys d = some read) (wrote : call.Wrote read.1) (none : d.NoCandidates)
    {path : List Directory} {ended : Except StoreError (Option Result)} {last : Directory}
    (execution : Execution (effect keys brokerUid true) (call.program cipher authorityId brokerUid).run d path
      (some ended) last) : ended = .ok (some (resultFromRecord read true)) ∧ last = d := by
  obtain ⟨chain, ends⟩ := (replay_call held wrote).execution execution
  exact ⟨(ends _ rfl).2 rfl none, (unchanged_of_chain chain execution.last_eq).2⟩

/-- In every run, with a failure or a crash at any operation of any call, the store goes on by one generation or one
rotation at a time, and every call keeps its laws. -/
theorem Run.storeLaws {trace : List CallRecord} {d : Directory}
    (run : Run (system cipher authorityId keys brokerUid) trace d) :
    StoreLaws cipher authorityId keys brokerUid trace d := by
  have laws : (visited trace ++ [d]).IsChain (Advances cipher authorityId keys) ∧
      ∀ event ∈ trace, CallLaws cipher authorityId keys event := by
    induction run with
    | start _ => exact ⟨.singleton _, fun _ inside => absurd inside List.not_mem_nil⟩
    | @step trace before events after _ taken ih =>
        obtain ⟨chain, calls⟩ := ih
        obtain ⟨call, path, result, execution, rfl⟩ := taken
        constructor
        · have call_chain := ((safe_call call before).execution execution).1
          have joined : (visited trace ++ ([before] ++ path)).IsChain (Advances cipher authorityId keys) := by
            rw [← List.append_assoc]
            exact chain.append_overlap call_chain (List.cons_ne_nil _ _)
          have ends : (visited trace ++ ([before] ++ path)).getLast? = some after := by
            rw [List.getLast?_append, List.singleton_append, execution.last_eq]
            rfl
          have whole : visited (trace ++ [⟨call, before, path, result, after⟩]) = visited trace ++ ([before] ++ path) := by
            simp only [visited, List.flatMap_append, List.flatMap_singleton, List.singleton_append]
          rw [whole]
          refine List.isChain_append.mpr ⟨joined, .singleton after, ?_⟩
          rintro x last y ⟨⟩
          obtain rfl := Option.some.inj (ends.symm.trans last)
          exact Advances.refl after
        · intro event inside
          rcases List.mem_append.mp inside with earlier | now
          · exact calls event earlier
          · obtain rfl := List.mem_singleton.mp now
            exact callLaws execution
  exact ⟨laws.1, laws.2, fun call read held wrote none =>
    ⟨Execution.exists (effect_total keys brokerUid) _ d, fun path ended last => returns_current held wrote none⟩⟩

end Runs

/-! ### A run -/

/-- What the key provider and the source of random bytes answer during a call. -/
structure Sources where
  keyId : OpaqueId
  random : Block 12

section Answers

variable {keys : OpaqueId → Key}

/-- Answers of a store where nothing fails. -/
def calmAnswer (keys : OpaqueId → Key) (sources : Sources) (d : Directory) : (op : StoreOp) → StoreAnswer Key op × Directory
  | .openDirectoryGuard => (true, d)
  | .acquireLock => (.ok (), d)
  | .assertDirectoryCurrent => (none, d)
  | .readDirectory => (some (d.candidates.keys.map Subtype.val), d)
  | .assertHeld => (.ok (), d)
  | .openCanonical => (if d.canonical.isSome then .ok () else .error ⟨some (js "ENOENT"), none⟩, d)
  | .statCanonical => (.ok { isFile := true, nlink := 1, mode := 0o600, uid := 0, size := 0 }, d)
  | .readCanonicalFile => (match d.canonical with
      | some bytes => .ok bytes
      | none => .error ⟨none, none⟩, d)
  | .getKey keyId => (.secret (keys keyId), d)
  | .activeKey => (.active sources.keyId (keys sources.keyId), d)
  | .randomBytes => (.ok (some sources.random), d)
  | .createTemporary name =>
      if (d.candidates.get? name).isSome then (.error ⟨none, none⟩, d) else (.ok (), d.setCandidate name [])
  | .chmodTemporary _ => (.ok (), d)
  | .writeTemporary name content => (.ok (), d.setCandidate name content)
  | .syncTemporary _ => (.ok (), d)
  | .closeTemporary _ => (.ok (), d)
  | .fault _ => (.ok (), d)
  | .renameWhileHeld name =>
      if (d.candidates.get? name).isSome then (.ok (), d.promote name) else (.error ⟨none, none⟩, d)
  | .syncDirectory => (.ok (), d)
  | .releaseLock => (true, d)

theorem calmAnswer_truthful (sources : Sources) (d : Directory) (op : StoreOp) :
    Truthful keys d op (calmAnswer keys sources d op).1 (calmAnswer keys sources d op).2 := by
  cases op with
  | readDirectory =>
      refine ⟨rfl, ?_⟩
      rintro _ ⟨⟩ name
      rw [List.mem_map_of_injective Subtype.val_injective, JsMap.mem_keys, ← Option.isSome_iff_exists,
        Option.isSome_iff_ne_none]
  | openCanonical =>
      cases file : d.canonical with
      | none => simp [Truthful, calmAnswer, file]
      | some bytes => simp [Truthful, calmAnswer, file]
  | statCanonical => exact ⟨rfl, nofun⟩
  | readCanonicalFile =>
      cases file : d.canonical with
      | none => simp [Truthful, calmAnswer, file]
      | some bytes => simp [Truthful, calmAnswer, file]
  | getKey keyId => exact ⟨rfl, fun key same => (KeyAnswer.secret.inj same).symm⟩
  | activeKey =>
      refine ⟨rfl, ?_⟩
      rintro keyId key ⟨⟩
      rfl
  | createTemporary name =>
      cases held : d.candidates.get? name with
      | none => exact .inr ⟨held, by simp [calmAnswer, held]⟩
      | some content => exact .inl (by simp [calmAnswer, held])
  | writeTemporary name content => exact ⟨content, rfl, fun _ => rfl⟩
  | renameWhileHeld name =>
      cases held : d.candidates.get? name with
      | none => exact .inl (by simp [calmAnswer, held])
      | some content =>
          refine .inr ⟨by rw [held]; exact Option.some_ne_none _, by simp [calmAnswer, held], ?_⟩
          simp [calmAnswer, held]
  | _ => exact rfl

variable {brokerUid : Option Nat} {authorityId : OpaqueId} {cipher : Cipher Key}

/-- Calls one after the other, each to its end. -/
def runCalls (cipher : Cipher Key) (authorityId : OpaqueId) (keys : OpaqueId → Key) (d : Directory) :
    List (Call × Sources) → List CallRecord × Directory
  | [] => ([], d)
  | (call, sources) :: calls =>
      let ran := (call.program cipher authorityId none).run.answered (calmAnswer keys sources) d
      let rest := runCalls cipher authorityId keys ran.2.2 calls
      (⟨call, d, ran.1, some ran.2.1, ran.2.2⟩ :: rest.1, rest.2)

theorem run_runCalls {trace : List CallRecord} {d : Directory} (run : Run (system cipher authorityId keys none) trace d)
    (calls : List (Call × Sources)) :
    Run (system cipher authorityId keys none) (trace ++ (runCalls cipher authorityId keys d calls).1)
      (runCalls cipher authorityId keys d calls).2 := by
  induction calls generalizing d trace with
  | nil =>
      rw [runCalls, List.append_nil]
      exact run
  | cons first calls ih =>
      obtain ⟨call, sources⟩ := first
      have truthful (d : Directory) (op : StoreOp) : effect keys none false d op (calmAnswer keys sources d op).1
          (calmAnswer keys sources d op).2 := ⟨calmAnswer_truthful sources d op, nofun⟩
      have taken := run.step ⟨call, _, _, Execution.answered truthful (call.program cipher authorityId none).run d, rfl⟩
      rw [runCalls, ← List.singleton_append, ← List.append_assoc]
      exact ih taken

end Answers

/-- A cipher that adds the key to every byte, with the sum of everything as its tag. -/
def sumCipher : Cipher UInt8 where
  encrypt key nonce aad plaintext := (plaintext.map (· + key), tagOf key nonce aad plaintext)
  decrypt key nonce aad ciphertext tag :=
    let plaintext := ciphertext.map (· - key)
    if tag = tagOf key nonce aad plaintext then some plaintext else none
  decrypt_encrypt key nonce aad plaintext := by
    have same : (plaintext.map (· + key)).map (· - key) = plaintext := by
      rw [List.map_map]
      refine (List.map_congr_left fun byte _ => ?_).trans (List.map_id plaintext)
      exact UInt8.add_sub_cancel byte key
    simp only [same, if_pos]
  ciphertext_length _ _ _ _ := List.length_map _
where
  tagOf (key : UInt8) (nonce : Block 12) (aad plaintext : Bytes) : Block 16 :=
    ⟨List.replicate 16 ((nonce.val ++ aad ++ plaintext).foldl (· + ·) key), List.length_replicate⟩

theorem sampleAuthority_isOpaqueId : IsOpaqueId (js "authority") := by decide

theorem firstKeyId_isOpaqueId : IsOpaqueId (js "k1") := by decide

theorem secondKeyId_isOpaqueId : IsOpaqueId (js "k2") := by decide

def sampleAuthority : OpaqueId := ⟨js "authority", sampleAuthority_isOpaqueId⟩

def firstSources : Sources where
  keyId := ⟨js "k1", firstKeyId_isOpaqueId⟩
  random := ⟨List.replicate 12 1, List.length_replicate⟩

/-- The sources after the active key was changed. -/
def secondSources : Sources where
  keyId := ⟨js "k2", secondKeyId_isOpaqueId⟩
  random := ⟨List.replicate 12 2, List.length_replicate⟩

/-- The key of an ID is its last byte. -/
def sampleKeys (keyId : OpaqueId) : UInt8 := (encodeUtf8 keyId.val).getLastD 0

def emptyDirectory : Directory := { canonical := none, candidates := .empty }

/-- Two payloads are stored, the second is encrypted with another key, and the last call is repeated. -/
def sampleCalls : List (Call × Sources) :=
  [(.compareAndSwap (.string (js "0")) (.string (js "c1")) (.string (js "first")), firstSources),
    (.compareAndSwap (.string (js "1")) (.string (js "c2")) (.string (js "second")), firstSources),
    (.rotateEncryption (.string (js "2")) (.string (js "c3")), secondSources),
    (.rotateEncryption (.string (js "2")) (.string (js "c3")), secondSources),
    (.compareAndSwap (.string (js "1")) (.string (js "c4")) (.string (js "late")), secondSources),
    (.read, firstSources)]

/-- What a call shows: the generation, the key, the payload and whether it was replayed. -/
def CallRecord.shows (event : CallRecord) : Option (Nat × JsString × JsString × Bool) :=
  match event.result with
  | some (.ok (some result)) => some (result.generation.val, result.keyId.val, result.payload.val, result.replayed)
  | _ => none

theorem sampleCalls_show : (runCalls sumCipher sampleAuthority sampleKeys emptyDirectory sampleCalls).1.map CallRecord.shows =
    [some (1, js "k1", js "first", false), some (2, js "k1", js "second", false), some (3, js "k2", js "second", false),
      some (3, js "k2", js "second", true), none, some (3, js "k2", js "second", false)] := by
  decide +kernel

/-- Two payloads are stored, the key is rotated, the rotation is repeated, a stale call is refused and the store is
read. -/
theorem storeLaws_rotated : ∃ trace d, Run (system sumCipher sampleAuthority sampleKeys none) trace d ∧
    trace.map CallRecord.shows =
      [some (1, js "k1", js "first", false), some (2, js "k1", js "second", false), some (3, js "k2", js "second", false),
        some (3, js "k2", js "second", true), none, some (3, js "k2", js "second", false)] ∧
    StoreLaws sumCipher sampleAuthority sampleKeys none trace d := by
  have start : Run (system sumCipher sampleAuthority sampleKeys none) [] emptyDirectory := .start trivial
  have run := run_runCalls start sampleCalls
  exact ⟨_, _, run, sampleCalls_show, Run.storeLaws run⟩

end PortableCodex.AuthStore
