import PortableCodex.Journal.Surroundings

/-!
The parts of a journal call that write nothing.

A part `Reads` when it keeps the content of the files, ends with a value that satisfies a property of the files
then, and never reports a commit. `Steady` parts are those without a value of interest.
-/

namespace PortableCodex.Journal

open Js Traces
open ProviderState (OpaqueId)

variable {A B : Type} {trustRenameOutcome : Bool} {d : RecordFiles} {post last : A → RecordFiles → Prop}

/-- The commit state with which a part of a run fails. -/
def Thrown.commitState (e : Thrown) : CommitState := (normalizeRuntimeError e).commitState

/-- How a part ends. -/
def Ends (post : A → RecordFiles → Prop) : Except Thrown A → RecordFiles → Prop
  | .ok a, after => post a after
  | .error e, _ => e.commitState ≠ .committed

/-- A part that writes nothing. -/
def Reads (trustRenameOutcome : Bool) (d : RecordFiles) (post : A → RecordFiles → Prop) (part : JournalProgram A) :
    Prop :=
  Safe (effect trustRenameOutcome) Eq Keeps (fun ended after => Keeps d after ∧ Ends post ended after) part.run d

/-! ### Rules -/

theorem Reads.bind {last : B → RecordFiles → Prop} {part : JournalProgram A} {next : A → JournalProgram B}
    (first : Reads trustRenameOutcome d post part)
    (rest : ∀ a s, Keeps d s → post a s → Reads trustRenameOutcome s last (next a)) :
    Reads trustRenameOutcome d last (part >>= next) := by
  refine Safe.bindExcept first ?_ fun e s ends => ends
  rintro a s ⟨keeps, holds⟩
  exact (rest a s keeps holds).mono (fun _ _ => id) fun _ _ ends => ⟨keeps.trans ends.1, ends.2⟩

theorem Reads.mono {part : JournalProgram A} (reads : Reads trustRenameOutcome d post part)
    (weaker : ∀ a s, Keeps d s → post a s → last a s) : Reads trustRenameOutcome d last part := by
  refine Safe.mono reads (fun _ _ => id) ?_
  rintro (e | a) s ⟨keeps, ends⟩
  · exact ⟨keeps, ends⟩
  · exact ⟨keeps, weaker a s keeps ends⟩

theorem Reads.pure {a : A} (holds : post a d) : Reads trustRenameOutcome d post (pure a : JournalProgram A) :=
  ⟨Keeps.refl d, holds⟩

theorem Reads.throw {e : Thrown} (state : e.commitState ≠ .committed) :
    Reads trustRenameOutcome d post (throw e : JournalProgram A) := ⟨Keeps.refl d, state⟩

theorem Reads.fail {code : ErrorCode} : Reads trustRenameOutcome d post (fail code : JournalProgram A) :=
  Reads.throw (by intro same; cases same)

theorem external_notCommitted : Thrown.external.commitState ≠ .committed := by
  intro same
  cases same

theorem uncertain_notCommitted : (Thrown.journal outcomeUncertain).commitState ≠ .committed := by
  intro same
  cases same

theorem Reads.ask {op : JournalOp} (reads : op.writes = false) :
    Reads trustRenameOutcome d (Truthful trustRenameOutcome d op) (ask op) := by
  rintro _ rfl answer after truthful
  exact ⟨truthful.keeps reads, truthful.keeps reads, truthful⟩

theorem Reads.check {condition : Prop} [Decidable condition] {code : ErrorCode} :
    Reads trustRenameOutcome d (fun _ after => after = d ∧ condition) (check condition code) := by
  by_cases holds : condition
  · rw [Journal.check, if_pos holds]
    exact Reads.pure ⟨rfl, holds⟩
  · rw [Journal.check, if_neg holds]
    exact Reads.fail

theorem Reads.checked {value : Except ErrorCode A} :
    Reads trustRenameOutcome d (fun a after => after = d ∧ value = .ok a) (checked value) := by
  cases value with
  | ok a => exact Reads.pure ⟨rfl, rfl⟩
  | error code => exact Reads.fail

theorem Reads.valueOf {value : Option A} :
    Reads trustRenameOutcome d (fun a after => after = d ∧ value = some a) (valueOf value) := by
  cases value with
  | some a => exact Reads.pure ⟨rfl, rfl⟩
  | none => exact Reads.throw external_notCommitted

theorem Reads.succeed {ok : Bool} :
    Reads trustRenameOutcome d (fun _ after => after = d ∧ ok = true) (succeed ok) := by
  cases ok with
  | true => exact Reads.pure ⟨rfl, rfl⟩
  | false => exact Reads.throw external_notCommitted

theorem Reads.orFail {part : JournalProgram A} {code : ErrorCode} (reads : Reads trustRenameOutcome d post part) :
    Reads trustRenameOutcome d post (orFail code part) := by
  refine Safe.tryCatch reads (fun _ _ ends => ends) ?_
  rintro (error | _) s ⟨keeps, state⟩
  · exact ⟨keeps, state⟩
  · exact ⟨keeps, external_notCommitted⟩

theorem Reads.orUncertain {part : JournalProgram A} (reads : Reads trustRenameOutcome d post part) :
    Reads trustRenameOutcome d post (orUncertain part) := by
  refine Safe.tryCatch reads (fun _ _ ends => ends) ?_
  rintro e s ⟨keeps, -⟩
  exact ⟨keeps, uncertain_notCommitted⟩

/-- A part that writes nothing, from any files. -/
def Steady (trustRenameOutcome : Bool) (part : JournalProgram A) : Prop :=
  ∀ d, Reads trustRenameOutcome d (fun _ _ => True) part

theorem Steady.bind {part : JournalProgram A} {next : A → JournalProgram B} (steady : Steady trustRenameOutcome part)
    (rest : ∀ a, Steady trustRenameOutcome (next a)) : Steady trustRenameOutcome (part >>= next) := fun d =>
  (steady d).bind fun a s _ _ => rest a s

theorem Steady.check (op : JournalOp) (reads : op.writes = false) (condition : JournalAnswer op → Prop)
    [DecidablePred condition] (code : ErrorCode) :
    Steady trustRenameOutcome (do check (condition (← ask op)) code) := fun _ =>
  (Reads.ask reads).bind fun _ _ _ _ => Reads.check.mono fun _ _ _ _ => trivial

theorem Steady.succeed (ok : Bool) : Steady trustRenameOutcome (succeed ok) := fun _ =>
  Reads.succeed.mono fun _ _ _ _ => trivial

theorem Steady.orFail {part : JournalProgram A} {code : ErrorCode} (steady : Steady trustRenameOutcome part) :
    Steady trustRenameOutcome (orFail code part) := fun d => (steady d).orFail

/-- A steady part before one with a value of interest. -/
theorem Steady.then {last : B → RecordFiles → Prop} {part : JournalProgram A} {next : A → JournalProgram B}
    (steady : Steady trustRenameOutcome part)
    (rest : ∀ a s, Keeps d s → Reads trustRenameOutcome s last (next a)) :
    Reads trustRenameOutcome d last (part >>= next) :=
  (steady d).bind fun a s keeps _ => rest a s keeps

theorem steady_assertCurrent : Steady trustRenameOutcome assertCurrent :=
  Steady.check .assertCurrent rfl (· = true) _

theorem steady_assertIdentityCurrent : Steady trustRenameOutcome assertIdentityCurrent :=
  Steady.check .assertIdentityCurrent rfl (· = true) _

theorem steady_assertHeld : Steady trustRenameOutcome assertHeld := Steady.check .assertHeld rfl (· = true) _

theorem steady_fault (point : FaultPoint) : Steady trustRenameOutcome (fault point) :=
  Steady.check (.fault point) rfl (· = true) _

/-! ### The canonical record -/

variable {currentUid : Nat} {operationId : OpaqueId}

theorem reads_assertTemporaryRecordAbsent :
    Reads trustRenameOutcome d (fun _ after => after.temporary = none) assertTemporaryRecordAbsent := by
  refine (Reads.ask rfl).bind fun answer s keeps ⟨same, told⟩ => ?_
  match answer, told with
  | none, _ => exact Reads.fail
  | some true, _ => exact Reads.fail
  | some false, told =>
      subst same
      refine Reads.pure ?_
      by_contra present
      cases (told false rfl).mpr present

theorem steady_runHook (hook : Bool) : Steady trustRenameOutcome (runHook hook) := by
  cases hook with
  | true => exact steady_fault .afterRecordRead
  | false => exact fun _ => Reads.pure trivial

theorem parseRecord_bytes {bytes : Bytes} {r : JournalRecord} (h : parseRecord bytes = .ok r) : bytes = r.bytes := by
  unfold parseRecord at h
  simp only [ensure] at h
  split at h
  · split at h
    · rename_i lossless
      cases parsed : parseJson (decodeUtf8 bytes) with
      | none =>
          rw [parsed] at h
          cases h
      | some value =>
          rw [parsed] at h
          change (readRecord value >>= _) = _ at h
          cases read : readRecord value with
          | error code =>
              rw [read] at h
              cases h
          | ok r' =>
              rw [read] at h
              change (canonicalBytes r'.json _ >>= _) = _ at h
              unfold canonicalBytes at h
              simp only [ensure] at h
              split at h
              · change ((if canonicalText r'.json = decodeUtf8 bytes then Except.ok () else _) >>= _) = _ at h
                split at h
                · rename_i same
                  obtain rfl : r' = r := Except.ok.inj h
                  rw [JournalRecord.bytes, same, lossless]
                · cases h
              · cases h
    · cases h
  · cases h

/-- The canonical file holds this record, or is missing; there is no temporary file. -/
structure Shows (r : Option JournalRecord) (files : RecordFiles) : Prop where
  content : files.content = r.map JournalRecord.bytes
  temporary : files.temporary = none

theorem Shows.kept {r : Option JournalRecord} {s : RecordFiles} (shows' : Shows r d) (keeps : Keeps d s) : Shows r s :=
  ⟨keeps.content.trans shows'.content, keeps.missing.mpr shows'.temporary⟩

theorem reads_readOpenRecord {hook : Bool} {expectedIdentity : Option Identity} :
    Reads trustRenameOutcome d (fun visible after => after.content = some visible.2.bytes)
      (readOpenRecord currentUid operationId hook expectedIdentity) := by
  refine (Reads.ask rfl).bind fun _ _ _ _ => Reads.valueOf.bind fun metadata _ _ _ => ?_
  refine Reads.check.bind fun _ _ _ _ => (Reads.ask rfl).bind fun answer held _ read => ?_
  refine Reads.valueOf.bind fun bytes s keeps ⟨_, same⟩ => ?_
  have content : s.content = some bytes := by
    rw [keeps.content]
    obtain ⟨rfl, told⟩ := read
    exact told bytes same
  refine (Reads.ask rfl).bind fun _ s₁ keeps₁ _ => Reads.valueOf.bind fun afterRead s₂ keeps₂ _ => ?_
  refine (Reads.ask rfl).bind fun _ s₃ keeps₃ _ => Reads.valueOf.bind fun path s₄ keeps₄ _ => ?_
  refine Reads.check.bind fun _ s₅ keeps₅ _ => Reads.checked.bind fun r s₆ keeps₆ ⟨_, parsed⟩ => ?_
  refine Reads.check.bind fun _ s₇ keeps₇ _ => (steady_runHook hook).then fun _ s₈ keeps₈ => ?_
  refine steady_assertCurrent.then fun _ s₉ keeps₉ => Reads.pure ?_
  have kept := keeps₁.trans <| keeps₂.trans <| keeps₃.trans <| keeps₄.trans <| keeps₅.trans <| keeps₆.trans <|
    keeps₇.trans <| keeps₈.trans keeps₉
  rw [kept.content, content, parseRecord_bytes parsed]

theorem reads_readCanonicalRecord {hook : Bool} {expectedIdentity : Option Identity} :
    Reads trustRenameOutcome d (fun visible => Shows (visible.map Prod.snd))
      (readCanonicalRecord currentUid operationId hook expectedIdentity) := by
  refine reads_assertTemporaryRecordAbsent.bind fun _ s _ absent => ?_
  refine (Reads.ask rfl).bind fun answer s' keeps opened => ?_
  have temporary := keeps.missing.mpr absent
  match answer, opened with
  | .missing, opened =>
      refine (steady_runHook hook).then fun _ s₁ keeps₁ => ?_
      refine steady_assertCurrent.then fun _ s₂ keeps₂ => Reads.pure ?_
      have shown : Shows none s' := by
        obtain ⟨rfl, -, missing⟩ := opened
        refine ⟨?_, temporary⟩
        rw [RecordFiles.content, missing rfl]
        rfl
      exact shown.kept (keeps₁.trans keeps₂)
  | .failed, _ => exact Reads.fail
  | .opened, _ =>
      refine reads_readOpenRecord.orFail.bind fun visible s₁ keeps₁ content => Reads.pure ?_
      exact ⟨content, keeps₁.missing.mpr temporary⟩

theorem steady_assertRecordPathIdentity (handle path : FileRole) (identity : Identity) (size : Nat) :
    Steady trustRenameOutcome (assertRecordPathIdentity currentUid handle path identity size) := by
  refine Steady.orFail fun d => ?_
  refine (Reads.ask rfl).bind fun _ _ _ _ => Reads.valueOf.bind fun _ _ _ _ => ?_
  refine (Reads.ask rfl).bind fun _ _ _ _ => Reads.valueOf.bind fun _ _ _ _ => ?_
  exact Reads.check.mono fun _ _ _ _ => trivial

theorem reads_readSameRecord (identity : Identity) (r : JournalRecord) :
    Reads trustRenameOutcome d (fun again after => Shows (some again) after ∧ again.bytes = r.bytes)
      (readSameRecord currentUid operationId identity r) := by
  refine reads_readCanonicalRecord.bind fun visible s _ shown => ?_
  match visible, shown with
  | none, _ => exact Reads.fail
  | some (_, again), shown =>
      refine Reads.check.bind fun _ s₁ keeps₁ ⟨_, same⟩ => Reads.pure ⟨shown.kept keeps₁, ?_⟩
      rw [JournalRecord.bytes, JournalRecord.bytes]
      exact congrArg (fun text => encodeUtf8 text) same

/-- A confirmed record is the record of the canonical file, and durable. -/
theorem reads_confirmRecord (identity : Identity) (r : JournalRecord) :
    Reads trustRenameOutcome d
      (fun again after => Shows (some again) after ∧ again.bytes = r.bytes ∧ after.Durable)
      (confirmRecord currentUid operationId identity r) := by
  refine Reads.orUncertain ?_
  refine steady_assertCurrent.then fun _ _ _ => steady_assertHeld.then fun _ _ _ => ?_
  refine (Reads.ask rfl).bind fun answer _ _ _ => ?_
  match answer with
  | .missing => exact Reads.throw external_notCommitted
  | .failed => exact Reads.throw external_notCommitted
  | .opened =>
  refine (steady_assertRecordPathIdentity .canonical .canonical identity _).then fun _ _ _ => ?_
  refine (reads_readSameRecord identity r).bind fun _ _ _ _ => ?_
  refine (Reads.ask rfl).bind fun synced s _ syncing => Reads.succeed.bind fun _ s₁ keeps₁ ⟨_, told⟩ => ?_
  have synced₁ : s₁.Synced := by
    refine keeps₁.synced ?_
    rcases syncing with ⟨failed, -⟩ | rfl
    · cases failed.symm.trans told
    · exact syncFile_synced _
  refine (steady_assertRecordPathIdentity .canonical .canonical identity _).then fun _ s₂ keeps₂ => ?_
  have durable : Reads trustRenameOutcome s₂ (fun _ after => after.Durable) syncDirectory := by
    refine (Reads.ask rfl).bind fun answer s₃ keeps₃ syncing => Reads.check.mono ?_
    rintro _ s₄ keeps₄ ⟨-, told⟩
    refine keeps₄.durable ?_
    rcases syncing with ⟨failed, -⟩ | ⟨durable, rfl, settled⟩
    · cases failed.symm.trans told
    · exact ⟨keeps₂.synced synced₁, settled (keeps₂.synced synced₁)⟩
  refine durable.bind fun _ s₃ _ durable₃ => ?_
  refine steady_assertCurrent.then fun _ s₄ keeps₄ => steady_assertHeld.then fun _ s₅ keeps₅ => ?_
  refine (reads_readSameRecord identity r).bind fun again s₆ keeps₆ ⟨shown, same⟩ => ?_
  refine (steady_assertRecordPathIdentity .canonical .canonical identity _).then fun _ s₇ keeps₇ => ?_
  refine (Reads.ask rfl).bind fun _ s₈ keeps₈ _ => Reads.succeed.bind fun _ s₉ keeps₉ _ => Reads.pure ?_
  have kept := keeps₇.trans (keeps₈.trans keeps₉)
  exact ⟨shown.kept kept, same, (keeps₄.trans <| keeps₅.trans <| keeps₆.trans kept).durable durable₃⟩

theorem reads_confirmVisibleRecord {visible : Option (Identity × JournalRecord)}
    (shown : Shows (visible.map Prod.snd) d) :
    Reads trustRenameOutcome d (fun existing after => Shows existing after ∧
        existing.map JournalRecord.bytes = visible.map fun v => v.2.bytes)
      (confirmVisibleRecord currentUid operationId visible) := by
  cases visible with
  | none => exact Reads.pure ⟨shown, rfl⟩
  | some found =>
      refine (reads_confirmRecord found.1 found.2).bind fun again s _ ⟨shown', same, _⟩ => Reads.pure ⟨shown', ?_⟩
      exact congrArg some same

theorem steady_assertCanonicalRecordAbsent : Steady trustRenameOutcome assertCanonicalRecordAbsent := by
  intro d
  refine reads_assertTemporaryRecordAbsent.bind fun _ s _ _ => (Reads.ask rfl).bind fun answer s' _ _ => ?_
  match answer with
  | .missing => exact steady_assertIdentityCurrent s'
  | .failed => exact Reads.fail
  | .found _ => exact Reads.fail

/-- After its verification, a record is durable. -/
theorem reads_verifyVisibleRecord (verification : Option (Identity × JournalRecord)) :
    Reads trustRenameOutcome d (fun _ after => verification.isSome = true → after.Durable)
      (verifyVisibleRecord currentUid operationId verification) := by
  cases verification with
  | some found =>
      exact (reads_confirmRecord found.1 found.2).bind fun _ _ _ ends => Reads.pure fun _ => ends.2.2
  | none =>
      refine Reads.orUncertain ?_
      refine steady_assertCurrent.then fun _ _ _ => steady_assertHeld.then fun _ _ _ => ?_
      refine reads_readCanonicalRecord.bind fun visible s _ _ => Reads.check.bind fun _ _ _ _ => ?_
      refine steady_assertCurrent.then fun _ _ _ => steady_assertHeld.then fun _ s' _ => ?_
      refine (steady_assertCanonicalRecordAbsent s').mono fun _ _ _ _ verified => ?_
      cases verified

/-- The errors of a part that leaves the outcome open. -/
theorem safe_orUncertain (part : JournalProgram A) (d : RecordFiles) :
    Safe (effect trustRenameOutcome) Eq (fun _ _ => True)
      (fun ended _ => ∀ e, ended = .error e → e = .journal outcomeUncertain) (orUncertain part).run d := by
  have any : Safe (effect trustRenameOutcome) Eq (fun _ _ => True) (fun _ _ => True) part.run d := Safe.trivial _ d
  refine Safe.tryCatch any ?_ ?_
  · intro a s _ e same
    cases same
  · rintro e s _ _ ⟨⟩
    rfl

theorem safe_verifyVisibleRecord (verification : Option (Identity × JournalRecord)) :
    Safe (effect trustRenameOutcome) Eq (fun _ _ => True)
      (fun ended _ => ∀ e, ended = .error e → e = .journal outcomeUncertain)
      (verifyVisibleRecord currentUid operationId verification).run d := by
  cases verification with
  | none => exact safe_orUncertain _ d
  | some found =>
      refine Safe.bindExcept (safe_orUncertain _ d) ?_ ?_
      · intro again s _ e same
        cases same
      · rintro e s ends _ ⟨⟩
        exact ends e rfl

end PortableCodex.Journal
