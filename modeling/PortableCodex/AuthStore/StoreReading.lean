import PortableCodex.AuthStore.Surroundings

/-!
The parts of a call of the auth state store that change nothing: checks and reads.

A part `Settles` when it leaves the directory as it is, ends with a value that satisfies a property, and
never reports a commit; where the directory is `clean` it fails only if an operation does.
-/

namespace PortableCodex.AuthStore

open Js ProviderState Traces

variable {Key A B : Type}

/-! ### Wrapped errors -/

theorem text_not_lock (code : ErrorCode) : ¬ isUnsafeLockCode (some code.text) ∧
    some code.text ≠ some (js "lock_commit_uncertain") ∧ some code.text ≠ some (js "unsupported_platform") ∧
    some code.text ≠ some (js "ENOENT") := by
  cases code <;> decide

theorem wrap_store (error : StoreError) : wrapExternalError (.store error) .notRenamed = error := by
  obtain ⟨safe, certain, supported, -⟩ := text_not_lock error.code
  have early : ¬ (Phase.notRenamed = .renameAttempted ∨ Phase.notRenamed = .renamed ∨ Phase.notRenamed = .synced ∨
      some error.code.text = some (js "lock_commit_uncertain")) := by
    rintro (⟨⟨⟩⟩ | ⟨⟨⟩⟩ | ⟨⟨⟩⟩ | same)
    exact certain same
  rw [wrapExternalError.eq_def, if_neg fun h => nomatch h.1]
  exact (if_neg early).trans ((if_neg safe).trans (if_neg supported))

theorem wrap_external (error : ExternalError) (phase : Phase) :
    (wrapExternalError (.external error) phase).commitState = some .notCommitted ∨
      (wrapExternalError (.external error) phase).commitState = some .uncertain := by
  rw [wrapExternalError.eq_def]
  split
  · left
    split <;> rfl
  split
  · exact .inr rfl
  · left
    split
    · rfl
    · split <;> rfl

theorem wrap_late {phase : Phase} (late : phase = .renamed ∨ phase = .synced) (error : Thrown) :
    wrapExternalError error phase = outcomeUncertain := by
  rw [wrapExternalError.eq_def, if_neg, if_pos]
  · rcases late with rfl | rfl
    · exact .inr (.inl rfl)
    · exact .inr (.inr (.inl rfl))
  · rintro ⟨rfl, -⟩
    rcases late with h | h <;> cases h

theorem wrap_rename (error : ExternalError) :
    (wrapExternalError (.external error) .renameAttempted).commitState =
      if error.renameOutcome = some (js "not-committed") then some .notCommitted else some .uncertain := by
  rw [wrapExternalError.eq_def]
  by_cases told : error.renameOutcome = some (js "not-committed")
  · rw [if_pos ⟨rfl, told⟩, if_pos told]
    split <;> rfl
  · rw [if_neg fun h => told h.2, if_pos (.inl rfl), if_neg told]
    rfl

/-- The commit state with which a part of a transaction fails. -/
def Thrown.commitState (error : Thrown) : Option CommitState := (wrapExternalError error .notRenamed).commitState

theorem commitState_store (error : StoreError) : Thrown.commitState (.store error) = error.commitState := by
  rw [Thrown.commitState, wrap_store]

theorem commitState_refusal (refusal : Refusal) : Thrown.commitState (.store refusal.val) = none :=
  (commitState_store _).trans refusal.property

theorem commitState_external (error : ExternalError) : Thrown.commitState (.external error) ≠ some .committed := by
  rw [Thrown.commitState]
  rcases wrap_external error .notRenamed with state | state <;> rw [state] <;> exact nofun

/-! ### Parts that change nothing -/

section Quiet

variable {keys : OpaqueId → Key} {brokerUid : Option Nat} {calm : Bool} {clean clean' : Directory → Prop}
  {post last : A → Directory → Prop}

/-- How a part ends: with a value that satisfies `post`, or with an error that does not report a commit and,
in calm surroundings, only where `clean` does not hold. -/
def Ends (calm : Bool) (clean : Directory → Prop) (post : A → Directory → Prop) :
    Except Thrown A → Directory → Prop
  | .ok a, d => post a d
  | .error error, d => error.commitState ≠ some .committed ∧ (calm = true → ¬ clean d)

/-- A part that leaves the directory as it is. -/
def Settles (keys : OpaqueId → Key) (brokerUid : Option Nat) (calm : Bool) (clean : Directory → Prop)
    (post : A → Directory → Prop) (part : StoreProgram Key A) : Prop :=
  Quiet (effect keys brokerUid calm) (Ends calm clean post) part.run

theorem Settles.mono {part : StoreProgram Key A} (settles : Settles keys brokerUid calm clean post part)
    (narrower : ∀ d, clean' d → clean d) (weaker : ∀ a d, post a d → last a d) :
    Settles keys brokerUid calm clean' last part := by
  refine Quiet.mono settles ?_
  rintro (error | a) d ends
  · exact ⟨ends.1, fun still holds => ends.2 still (narrower d holds)⟩
  · exact weaker a d ends

/-- A part that is only reached where `before` holds. -/
theorem Settles.under {before : Directory → Prop} {part : StoreProgram Key A}
    (settles : Settles keys brokerUid calm (fun d => before d ∧ clean d) (fun a d => before d → post a d) part) :
    Quiet (effect keys brokerUid calm) (fun r d => before d → Ends calm clean post r d) part.run := by
  refine Quiet.mono settles ?_
  rintro (error | a) d ends holds
  · exact ⟨ends.1, fun still unharmed => ends.2 still ⟨holds, unharmed⟩⟩
  · exact ends holds

theorem Settles.bind {last : B → Directory → Prop} {part : StoreProgram Key A} {next : A → StoreProgram Key B}
    (settles : Settles keys brokerUid calm clean post part)
    (rest : ∀ a, Settles keys brokerUid calm (fun d => post a d ∧ clean d) (fun b d => post a d → last b d) (next a)) :
    Settles keys brokerUid calm clean last (part >>= next) :=
  Quiet.bindExcept settles (fun a => (rest a).under) fun _ _ => id

theorem Settles.pure {a : A} (holds : ∀ d, post a d) :
    Settles keys brokerUid calm clean post (pure a : StoreProgram Key A) := Quiet.done holds

theorem Settles.ask {op : StoreOp} (reads : op.writes = false) :
    Settles keys brokerUid calm clean (fun answer d => effect keys brokerUid calm d op answer d)
      (ask op : StoreProgram Key _) := by
  refine Quiet.bind (Quiet.perform ?_) fun _ => Quiet.done fun _ => id
  rintro d answer after effected
  obtain rfl := effected.1.still reads
  exact ⟨rfl, effected⟩

theorem Settles.valueOf {value : Except ExternalError A} (ok : ∀ a, value = .ok a → ∀ d, post a d)
    (error : ∀ e, value = .error e → calm = true → ∀ d, ¬ clean d) :
    Settles keys brokerUid calm clean post (valueOf value : StoreProgram Key A) := by
  cases value with
  | ok a => exact Quiet.done (ok a rfl)
  | error e => exact Quiet.done fun d => ⟨commitState_external e, fun still => error e rfl still d⟩

theorem Settles.checked {value : Except Refusal A} (ok : ∀ a, value = .ok a → ∀ d, post a d)
    (error : ∀ e, value = .error e → calm = true → ∀ d, ¬ clean d) :
    Settles keys brokerUid calm clean post (checked value : StoreProgram Key A) := by
  cases value with
  | ok a => exact Quiet.done (ok a rfl)
  | error e =>
      refine Quiet.done fun d => ⟨?_, fun still => error e rfl still d⟩
      rw [commitState_refusal]
      exact nofun

theorem Settles.check {value : Except Refusal A} (error : calm = true → ∀ d, clean d → ∃ a, value = .ok a) :
    Settles keys brokerUid calm clean (fun a _ => value = .ok a) (AuthStore.checked value : StoreProgram Key A) := by
  refine Settles.checked (fun _ same _ => same) fun e thrown still d holds => ?_
  obtain ⟨a, same⟩ := error still d holds
  cases thrown.symm.trans same

theorem Settles.fail {refusal : Refusal} (never : calm = true → ∀ d, ¬ clean d) :
    Settles keys brokerUid calm clean post (fail refusal : StoreProgram Key A) :=
  Settles.checked nofun fun _ _ => never

/-! ### Reading -/

theorem settles_assertDirectoryCurrent :
    Settles keys brokerUid calm clean (fun _ _ => True) (assertDirectoryCurrent : StoreProgram Key Unit) := by
  refine Settles.bind (Settles.ask rfl) fun answer => ?_
  cases answer with
  | none => exact Settles.pure fun _ _ => trivial
  | some message => exact Settles.fail fun still _ holds => nomatch holds.1.2 still

theorem settles_assertHeld :
    Settles keys brokerUid calm clean (fun _ _ => True) (assertHeld : StoreProgram Key Unit) :=
  Settles.bind (Settles.ask rfl) fun _ => Settles.valueOf (fun _ _ _ _ => trivial) fun _ thrown still _ holds =>
    nomatch thrown.symm.trans (holds.1.2 still)

theorem settles_syncDirectory :
    Settles keys brokerUid calm clean (fun _ _ => True) (syncDirectory : StoreProgram Key Unit) :=
  Settles.bind (Settles.ask rfl) fun _ => Settles.valueOf (fun _ _ _ _ => trivial) fun _ thrown still _ holds =>
    nomatch thrown.symm.trans (holds.1.2 still)

/-- A step without a value, before the rest of a part. -/
theorem Settles.after {part : StoreProgram Key Unit} {next : StoreProgram Key A}
    (settles : Settles keys brokerUid calm clean (fun _ _ => True) part)
    (rest : Settles keys brokerUid calm clean post next) :
    Settles keys brokerUid calm clean post (do part; next) :=
  Settles.bind settles fun _ =>
    rest.mono (fun _ holds => holds.2) fun _ _ holds _ => holds

theorem settles_proveDirectoryDurable :
    Settles keys brokerUid calm clean (fun _ _ => True) (proveDirectoryDurable : StoreProgram Key Unit) :=
  settles_assertDirectoryCurrent.after <| settles_assertHeld.after <| settles_syncDirectory.after <|
    settles_assertDirectoryCurrent.after settles_assertHeld

theorem settles_assertNoRecoveryArtifacts :
    Settles keys brokerUid calm Directory.NoCandidates (fun _ d => d.NoCandidates)
      (assertNoRecoveryArtifacts : StoreProgram Key Unit) := by
  refine settles_assertDirectoryCurrent.after ?_
  refine Settles.bind (Settles.ask rfl) fun answer => ?_
  cases answer with
  | none => exact Settles.fail fun still _ holds => holds.1.2 still rfl
  | some entries =>
      refine settles_assertDirectoryCurrent.after (Settles.checked ?_ ?_)
      · rintro _ passed d ⟨⟨-, listed⟩, -⟩ name
        by_contra candidate
        have absent : ∀ entry ∈ entries, ¬ nextPrefix <+: entry := by
          by_contra present
          rw [ensure, if_neg present] at passed
          cases passed
        exact absent name.val ((listed entries rfl name).mpr candidate) name.property
      · rintro e refused - d ⟨⟨⟨-, listed⟩, -⟩, none⟩
        have absent : ∀ entry ∈ entries, ¬ nextPrefix <+: entry := by
          intro entry inside named
          exact (listed entries rfl ⟨entry, named⟩).mp inside (none ⟨entry, named⟩)
        rw [ensure, if_pos absent] at refused
        cases refused

theorem settles_keyById (keyId : OpaqueId) :
    Settles keys brokerUid calm (fun _ => True) (fun key _ => key = keys keyId) (keyById keyId) := by
  refine Settles.bind (Settles.ask rfl) fun answer => ?_
  cases answer with
  | secret key => exact Settles.pure fun _ holds => holds.1.2 key rfl
  | throws => exact Settles.fail fun still _ holds => nomatch (holds.1.2 still).choose_spec
  | missing => exact Settles.fail fun still _ holds => nomatch (holds.1.2 still).choose_spec
  | malformed => exact Settles.fail fun still _ holds => nomatch (holds.1.2 still).choose_spec

variable {cipher : Cipher Key} {authorityId : OpaqueId}

theorem settles_decrypt (raw : JsString) :
    Settles keys brokerUid calm (fun _ => ∃ read, decryptEnvelope cipher authorityId keys raw = .ok read)
      (fun read _ => decryptEnvelope cipher authorityId keys raw = .ok read) (decrypt cipher authorityId raw) := by
  refine Settles.bind (Settles.check ?_) fun envelope => ?_
  · rintro - d ⟨read, same⟩
    obtain ⟨envelope, framed, -⟩ := (decryptEnvelope_eq_ok cipher authorityId).mp same
    exact ⟨envelope, framed⟩
  refine Settles.bind ((settles_keyById envelope.keyId).mono (fun _ _ => trivial) fun _ _ => id) fun key => ?_
  refine Settles.bind (Settles.check ?_) fun r => Settles.pure ?_
  · rintro - d ⟨rfl, framed, read, same⟩
    obtain ⟨_, framed', opened, -⟩ := (decryptEnvelope_eq_ok cipher authorityId).mp same
    obtain rfl := Except.ok.inj (framed.symm.trans framed')
    exact ⟨_, opened⟩
  · rintro d opened rfl framed
    exact (decryptEnvelope_eq_ok cipher authorityId).mpr ⟨envelope, framed, opened, rfl⟩

/-- How the file behind the canonical path is read. -/
def FileRead (calm : Bool) : Except Thrown Bytes → Directory → Prop
  | .ok bytes, d => d.canonical = some bytes
  | .error error, d => error.commitState ≠ some .committed ∧
      (error.code = some (js "ENOENT") → d.canonical = none) ∧ (calm = true → error.code = some (js "ENOENT"))

/-- An open file reports other errors than a missing one. -/
theorem FileRead.later {error : Thrown} {d : Directory} (state : error.commitState ≠ some .committed)
    (other : error.code ≠ some (js "ENOENT")) (disturbed : calm = true → False) : FileRead calm (.error error) d :=
  ⟨state, fun same => absurd same other, fun still => (disturbed still).elim⟩

theorem quiet_ask {op : StoreOp} {last : Except Thrown A → Directory → Prop}
    {next : StoreAnswer Key op → StoreProgram Key A} (reads : op.writes = false)
    (rest : ∀ answer, Quiet (effect keys brokerUid calm)
      (fun r d => effect keys brokerUid calm d op answer d → last r d) (next answer).run) :
    Quiet (effect keys brokerUid calm) last (ask op >>= next).run := by
  rintro d _ rfl answer after effected
  obtain rfl := effected.1.still reads
  exact ⟨rfl, (rest answer after).mono (fun _ _ => id) fun _ _ ⟨same, ends⟩ => ⟨same, ends effected⟩⟩

theorem quiet_readCanonicalFile :
    Quiet (effect keys brokerUid calm) (FileRead calm) (readCanonicalFile brokerUid : StoreProgram Key Bytes).run := by
  refine quiet_ask rfl fun opened => ?_
  cases opened with
  | error error =>
      refine Quiet.done fun d effected => ?_
      obtain ⟨⟨-, -, missing⟩, still⟩ := effected
      refine ⟨commitState_external error, missing error rfl, fun calmly => ?_⟩
      rcases still calmly with opened | ⟨_, ⟨⟩, code⟩
      · cases opened
      · exact code
  | ok _ =>
  show Quiet _ _ (ask .statCanonical >>= _).run
  refine quiet_ask rfl fun stated => ?_
  cases stated with
  | error error =>
      refine Quiet.done fun d effected _ => ?_
      obtain ⟨⟨-, other⟩, still⟩ := effected
      exact FileRead.later (commitState_external error) (other error rfl) fun calmly =>
        nomatch (still calmly).choose_spec
  | ok metadata =>
  show Quiet _ _ (checked (checkMetadata brokerUid metadata) >>= _).run
  cases accepted : checkMetadata brokerUid metadata with
  | error refusal =>
      refine Quiet.done fun d effected _ => ?_
      refine FileRead.later ?_ (text_not_lock refusal.val.code).2.2.2 fun calmly => ?_
      · rw [commitState_refusal]
        exact nofun
      · obtain ⟨_, ⟨⟩, same⟩ := effected.2 calmly
        rw [accepted] at same
        cases same
  | ok _ =>
  show Quiet _ _ (ask .readCanonicalFile >>= _).run
  refine quiet_ask rfl fun content => ?_
  cases content with
  | ok bytes => exact Quiet.done fun d effected _ _ => effected.1.2.1 bytes rfl
  | error error =>
      refine Quiet.done fun d effected _ opened => ?_
      exact FileRead.later (commitState_external error) (effected.1.2.2 error rfl) fun calmly =>
        nomatch (effected.2 calmly (opened.1.2.1 rfl)).choose_spec

/-- A part whose errors are handled. -/
theorem Settles.attempt {part : StoreProgram Key A} {next : Except Thrown A → StoreProgram Key B}
    {ends : Except Thrown A → Directory → Prop} {last : B → Directory → Prop}
    (quiet : Quiet (effect keys brokerUid calm) ends part.run)
    (rest : ∀ r, Quiet (effect keys brokerUid calm) (fun b d => ends r d → Ends calm clean last b d) (next r).run) :
    Settles keys brokerUid calm clean last (ExceptT.lift part.run >>= next) := by
  have lifted : Settles keys brokerUid calm clean ends (ExceptT.lift part.run : StoreProgram Key (Except Thrown A)) :=
    Quiet.bind quiet fun _ => Quiet.done fun _ => id
  exact Quiet.bindExcept lifted rest fun _ _ => id

/-- The record of the canonical file, and the ID of its key. -/
def canonicalRecord (cipher : Cipher Key) (authorityId : OpaqueId) (keys : OpaqueId → Key) (d : Directory) :
    Option (StoreRecord × OpaqueId) :=
  d.canonical.bind fun bytes => (decryptEnvelope cipher authorityId keys (decodeUtf8 bytes)).toOption

theorem canonicalRecord_eq_some {d : Directory} {bytes : Bytes} (file : d.canonical = some bytes)
    {read : StoreRecord × OpaqueId} : canonicalRecord cipher authorityId keys d = some read ↔
      decryptEnvelope cipher authorityId keys (decodeUtf8 bytes) = .ok read := by
  rw [canonicalRecord, file, Option.bind_some]
  cases decryptEnvelope cipher authorityId keys (decodeUtf8 bytes) with
  | error refusal => exact ⟨nofun, nofun⟩
  | ok found => exact ⟨fun same => congrArg _ (Option.some.inj same), fun same => congrArg _ (Except.ok.inj same)⟩

/-- The canonical file is there and readable, or missing where it may be. -/
def Readable (cipher : Cipher Key) (authorityId : OpaqueId) (keys : OpaqueId → Key) (allowMissing : Bool)
    (d : Directory) : Prop :=
  (allowMissing = true ∧ d.canonical = none) ∨ ∃ read, canonicalRecord cipher authorityId keys d = some read

/-- `current` is what the canonical file holds. -/
def Current (cipher : Cipher Key) (authorityId : OpaqueId) (keys : OpaqueId → Key)
    (current : Option (StoreRecord × OpaqueId)) (d : Directory) : Prop :=
  canonicalRecord cipher authorityId keys d = current ∧ (current = none → d.canonical = none)

theorem settles_readCanonical (allowMissing : Bool) :
    Settles keys brokerUid calm (Readable cipher authorityId keys allowMissing)
      (fun current d => Current cipher authorityId keys current d ∧ (current = none → allowMissing = true))
      (readCanonical cipher authorityId brokerUid allowMissing) := by
  refine settles_assertDirectoryCurrent.after (Settles.attempt quiet_readCanonicalFile fun file => ?_)
  cases file with
  | ok bytes =>
      refine (settles_assertDirectoryCurrent.after (Settles.bind ((settles_decrypt (decodeUtf8 bytes)).mono ?_
        fun _ _ => id) fun read => Settles.pure ?_)).under
      · rintro d ⟨file, ⟨-, missing⟩ | ⟨read, same⟩⟩
        · cases file.symm.trans missing
        · exact ⟨read, (canonicalRecord_eq_some file).mp same⟩
      · intro d same file
        exact ⟨⟨(canonicalRecord_eq_some file).mpr same, nofun⟩, nofun⟩
  | error error =>
      show Quiet _ _ (if allowMissing = true ∧ error.code = some (js "ENOENT") then _ else _ : StoreProgram Key _).run
      split
      · rename_i missing
        refine (settles_assertDirectoryCurrent.after (Settles.pure ?_)).under
        rintro d ⟨-, absent, -⟩
        have none := absent missing.2
        exact ⟨⟨by rw [canonicalRecord, none]; rfl, fun _ => none⟩, fun _ => missing.1⟩
      · rename_i present
        -- in calm surroundings the file is missing, which this caller does not allow
        have unclean : calm = true → ∀ d, ¬ (FileRead calm (.error error) d ∧
            Readable cipher authorityId keys allowMissing d) := by
          rintro still d ⟨⟨-, absent, told⟩, ⟨allowed, -⟩ | ⟨read, same⟩⟩
          · exact present ⟨allowed, told still⟩
          · rw [canonicalRecord, absent (told still)] at same
            cases same
        cases error with
        | store own =>
            exact Quiet.done fun d ends => ⟨ends.1, fun still holds => unclean still d ⟨ends, holds⟩⟩
        | external error =>
            show Quiet _ _ (if error.code = some (js "ELOOP") then _ else _ : StoreProgram Key _).run
            split
            · exact (Settles.fail unclean).under
            · exact (Settles.fail unclean).under

end Quiet

end PortableCodex.AuthStore
