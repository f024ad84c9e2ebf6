import PortableCodex.AuthStore.StoreReading

/-!
What a call of the auth state store does to its directory.
-/

namespace PortableCodex.AuthStore

open Js ProviderState Traces

variable {Key A B : Type}

section Writing

variable {cipher : Cipher Key} {authorityId : OpaqueId} {keys : OpaqueId → Key} {brokerUid : Option Nat} {calm : Bool}

/-- `r` is a record that a call may put after what is in the directory. -/
def Follows (cipher : Cipher Key) (authorityId : OpaqueId) (keys : OpaqueId → Key) (before : Directory)
    (r : StoreRecord) : Prop :=
  (before.canonical = none ∧ r.baseGeneration.val = 0 ∧ r.operation = .compareAndSwap) ∨
    ∃ read, canonicalRecord cipher authorityId keys before = some read ∧ r.baseGeneration = read.1.generation ∧
      (r.operation = .rotateEncryption → r.payload = read.1.payload)

/-- One step of the chain of canonical records: none, or to a record that follows the one before. -/
def Advances (cipher : Cipher Key) (authorityId : OpaqueId) (keys : OpaqueId → Key) (before after : Directory) : Prop :=
  after.canonical = before.canonical ∨
    ∃ read, canonicalRecord cipher authorityId keys after = some read ∧ Follows cipher authorityId keys before read.1 ∧
      read.1.generation.val = read.1.baseGeneration.val + 1

theorem Advances.refl (d : Directory) : Advances cipher authorityId keys d d := .inl rfl

/-- The program of one operation that changes the directory. -/
theorem safe_ask {op : StoreOp} {guarantee : Directory → Directory → Prop} {last : Except Thrown A → Directory → Prop}
    {next : StoreAnswer Key op → StoreProgram Key A} {d : Directory}
    (step : ∀ answer after, effect keys brokerUid calm d op answer after →
      guarantee d after ∧ Safe (effect keys brokerUid calm) Eq guarantee last (next answer).run after) :
    Safe (effect keys brokerUid calm) Eq guarantee last (ask op >>= next).run d := by
  rintro _ rfl answer after effected
  exact step answer after effected

theorem safe_inPhase {phase : Phase} {part : StoreProgram Key A} {guarantee : Directory → Directory → Prop}
    {middle last : Except Thrown A → Directory → Prop} {d : Directory}
    (safe : Safe (effect keys brokerUid calm) Eq guarantee middle part.run d)
    (ok : ∀ a s, middle (.ok a) s → last (.ok a) s)
    (thrown : ∀ e s, middle (.error e) s → last (.error (.store (wrapExternalError e phase))) s) :
    Safe (effect keys brokerUid calm) Eq guarantee last (inPhase phase part).run d :=
  Safe.tryCatch safe ok thrown

/-! ### The candidate -/

/-- How a part before the rename ends, in a directory with this canonical file. -/
def Prepares (canonical : Option Bytes) (post : A → Directory → Prop) : Except Thrown A → Directory → Prop
  | .ok a, d => d.canonical = canonical ∧ post a d
  | .error error, d => d.canonical = canonical ∧ error.commitState ≠ some .committed

theorem safe_createTemporary {name : CandidateName} (d : Directory) :
    Safe (effect keys brokerUid calm) Eq (Advances cipher authorityId keys)
      (Prepares d.canonical fun _ _ => True) (createTemporary name : StoreProgram Key Unit).run d := by
  refine safe_ask fun answer after effected => ?_
  have kept : after.canonical = d.canonical := by
    rcases effected.1 with ⟨rfl, -⟩ | ⟨-, rfl⟩ <;> rfl
  refine ⟨.inl kept, ?_⟩
  cases answer with
  | ok _ => exact ⟨kept, trivial⟩
  | error error => exact ⟨kept, commitState_external error⟩

theorem safe_writeTemporary {name : CandidateName} {content : Bytes} (d : Directory) :
    Safe (effect keys brokerUid calm) Eq (Advances cipher authorityId keys)
      (Prepares d.canonical fun _ after => after.candidates.get? name = some content)
      (writeTemporary name content : StoreProgram Key Unit).run d := by
  refine safe_ask fun answer after effected => ?_
  obtain ⟨written, rfl, complete⟩ := effected.1
  refine ⟨.inl rfl, ?_⟩
  cases answer with
  | ok _ => exact ⟨rfl, (Directory.setCandidate_self d name written).trans (congrArg some (complete rfl))⟩
  | error error => exact ⟨rfl, commitState_external error⟩

/-- An operation without a value that changes nothing. -/
theorem settles_still (op : StoreOp) (reads : op.writes = false)
    (value : StoreAnswer Key op → Except ExternalError A) :
    Settles keys brokerUid calm (fun _ => False) (fun _ _ => True)
      (do valueOf (value (← ask op)) : StoreProgram Key A) :=
  Settles.bind (Settles.ask reads) fun _ => Settles.valueOf (fun _ _ _ _ => trivial) fun _ _ _ _ => And.right

theorem settles_chmodTemporary (name : CandidateName) :
    Settles keys brokerUid calm (fun _ => False) (fun _ _ => True) (chmodTemporary name : StoreProgram Key Unit) :=
  settles_still (.chmodTemporary name) rfl id

theorem settles_syncTemporary (name : CandidateName) :
    Settles keys brokerUid calm (fun _ => False) (fun _ _ => True) (syncTemporary name : StoreProgram Key Unit) :=
  settles_still (.syncTemporary name) rfl id

theorem settles_closeTemporary (name : CandidateName) :
    Settles keys brokerUid calm (fun _ => False) (fun _ _ => True) (closeTemporary name : StoreProgram Key Unit) :=
  settles_still (.closeTemporary name) rfl id

theorem settles_fault (point : FaultPoint) :
    Settles keys brokerUid calm (fun _ => False) (fun _ _ => True) (fault point : StoreProgram Key Unit) :=
  settles_still (.fault point) rfl id

/-- A part that changes nothing, before the rest of a call. -/
theorem Settles.then {guarantee : Directory → Directory → Prop} {part : StoreProgram Key A}
    {next : A → StoreProgram Key B} {clean : Directory → Prop} {post : A → Directory → Prop}
    {last : Except Thrown B → Directory → Prop} {d : Directory} (settles : Settles keys brokerUid calm clean post part)
    (reflexive : ∀ s, guarantee s s)
    (ok : ∀ a, post a d → Safe (effect keys brokerUid calm) Eq guarantee last (next a).run d)
    (thrown : ∀ e : Thrown, e.commitState ≠ some .committed → (calm = true → ¬ clean d) → last (.error e) d) :
    Safe (effect keys brokerUid calm) Eq guarantee last (part >>= next).run d :=
  Quiet.then settles reflexive ok fun e ends => thrown e ends.1 ends.2

/-- A step without a value that changes nothing and, in calm surroundings, does not fail. -/
theorem Settles.step {guarantee : Directory → Directory → Prop} {part : StoreProgram Key Unit}
    {next : StoreProgram Key B} {last : Except Thrown B → Directory → Prop} {d : Directory}
    (settles : Settles keys brokerUid calm (fun _ => True) (fun _ _ => True) part) (reflexive : ∀ s, guarantee s s)
    (ok : Safe (effect keys brokerUid calm) Eq guarantee last next.run d)
    (thrown : ∀ e : Thrown, e.commitState ≠ some .committed → calm ≠ true → last (.error e) d) :
    Safe (effect keys brokerUid calm) Eq guarantee last (do part; next).run d :=
  settles.then reflexive (fun _ _ => ok) fun e state disturbed => thrown e state fun calmly => disturbed calmly trivial

/-- A part that changes nothing, before the rest of a write; its calm ends do not matter there. -/
theorem Settles.before {part : StoreProgram Key A} {next : A → StoreProgram Key B}
    {post : A → Directory → Prop} {last : Except Thrown B → Directory → Prop} {d : Directory}
    (settles : Settles keys brokerUid calm (fun _ => False) post part)
    (ok : ∀ a, post a d → Safe (effect keys brokerUid calm) Eq (Advances cipher authorityId keys) last (next a).run d)
    (thrown : ∀ e : Thrown, e.commitState ≠ some .committed → last (.error e) d) :
    Safe (effect keys brokerUid calm) Eq (Advances cipher authorityId keys) last (part >>= next).run d :=
  settles.then Advances.refl ok fun e state _ => thrown e state

theorem Settles.safe {part : StoreProgram Key A} {post : A → Directory → Prop}
    {last : Except Thrown A → Directory → Prop} {d : Directory}
    (settles : Settles keys brokerUid calm (fun _ => False) post part) (ok : ∀ a, post a d → last (.ok a) d)
    (thrown : ∀ e : Thrown, e.commitState ≠ some .committed → last (.error e) d) :
    Safe (effect keys brokerUid calm) Eq (Advances cipher authorityId keys) last part.run d := by
  refine (settles d).mono (fun s _ same => same ▸ Advances.refl s) ?_
  rintro (e | a) s ⟨rfl, ends⟩
  · exact thrown e ends.1
  · exact ok a ends

theorem safe_writeCandidate {name : CandidateName} {content : Bytes} (d : Directory) :
    Safe (effect keys brokerUid calm) Eq (Advances cipher authorityId keys)
      (Prepares d.canonical fun _ after => after.candidates.get? name = some content)
      (writeCandidate name content : StoreProgram Key Unit).run d := by
  refine settles_assertDirectoryCurrent.before (fun _ _ => ?_) fun e state => ⟨rfl, state⟩
  refine Safe.bindExcept (safe_createTemporary d) ?_ fun e s ends => ends
  rintro _ created ⟨kept, -⟩
  refine (settles_chmodTemporary name).before (fun _ _ => ?_) fun e state => ⟨kept, state⟩
  refine Safe.bindExcept (safe_writeTemporary created) ?_ fun e s ends => ⟨ends.1.trans kept, ends.2⟩
  rintro _ written ⟨same, content⟩
  have canonical := same.trans kept
  refine (settles_syncTemporary name).before (fun _ _ => ?_) fun e state => ⟨canonical, state⟩
  refine (settles_closeTemporary name).before (fun _ _ => ?_) fun e state => ⟨canonical, state⟩
  refine (settles_fault .afterTempSync).before (fun _ _ => ?_) fun e state => ⟨canonical, state⟩
  refine settles_assertDirectoryCurrent.before (fun _ _ => ?_) fun e state => ⟨canonical, state⟩
  exact settles_assertHeld.safe (fun _ _ => ⟨canonical, content⟩) fun e state => ⟨canonical, state⟩

/-! ### The commit -/

/-- How a part of a call ends that began with this canonical file: an error that does not leave the outcome
open leaves the file as it was. -/
def Reports (canonical : Option Bytes) (post : A → Directory → Prop) : Except Thrown A → Directory → Prop
  | .ok a, d => post a d
  | .error error, d => error.commitState ≠ some .committed ∧
      (error.commitState ≠ some .uncertain → d.canonical = canonical)

theorem Reports.uncertain {canonical : Option Bytes} {post : A → Directory → Prop} {d : Directory} :
    Reports canonical post (.error (.store outcomeUncertain)) d := by
  have state : Thrown.commitState (.store outcomeUncertain) = some .uncertain := commitState_store _
  exact ⟨by rw [state]; exact nofun, fun certain => absurd state certain⟩

theorem Reports.mono {canonical : Option Bytes} {post post' : A → Directory → Prop}
    (weaker : ∀ a d, post a d → post' a d) (ended : Except Thrown A) (d : Directory)
    (reports : Reports canonical post ended d) : Reports canonical post' ended d := by
  cases ended with
  | error e => exact reports
  | ok a => exact weaker a d reports

/-- The parts of a commit after the rename: they change nothing, and their errors leave the outcome open. -/
theorem safe_late {phase : Phase} (late : phase = .renamed ∨ phase = .synced) {part : StoreProgram Key A}
    {post : A → Directory → Prop} {canonical : Option Bytes} {d : Directory}
    (settles : Settles keys brokerUid calm (fun _ => False) post part) :
    Safe (effect keys brokerUid calm) Eq (Advances cipher authorityId keys)
      (Reports canonical fun a after => after = d ∧ post a d) (inPhase phase part).run d := by
  refine safe_inPhase ((settles d).mono (fun s _ same => same ▸ Advances.refl s) fun _ _ => id) ?_ ?_
  · rintro a s ⟨rfl, ends⟩
    exact ⟨rfl, ends⟩
  · rintro e s -
    rw [wrap_late late]
    exact Reports.uncertain

theorem safe_renameWhileHeld {name : CandidateName} {d : Directory}
    (advances : Advances cipher authorityId keys d (d.promote name)) :
    Safe (effect keys brokerUid calm) Eq (Advances cipher authorityId keys)
      (Reports d.canonical fun _ after => after = d.promote name)
      (inPhase .renameAttempted (renameWhileHeld name) : StoreProgram Key Unit).run d := by
  have renames : Safe (effect keys brokerUid calm) Eq (Advances cipher authorityId keys)
      (fun ended after => (∃ a, ended = .ok a ∧ after = d.promote name) ∨ ∃ error, ended = .error (.external error) ∧
        (after = d ∨ error.renameOutcome ≠ some (js "not-committed")))
      (renameWhileHeld name : StoreProgram Key Unit).run d := by
    refine safe_ask fun answer after effected => ?_
    rcases effected.1 with ⟨rfl, failed⟩ | ⟨-, rfl, told⟩
    · refine ⟨.refl after, ?_⟩
      cases answer with
      | ok _ => exact absurd rfl failed
      | error error => exact .inr ⟨error, rfl, .inl rfl⟩
    · refine ⟨advances, ?_⟩
      cases answer with
      | ok a => exact .inl ⟨a, rfl, rfl⟩
      | error error => exact .inr ⟨error, rfl, .inr (told error rfl)⟩
  refine safe_inPhase renames ?_ ?_
  · rintro a s (⟨_, -, promoted⟩ | ⟨_, ⟨⟩, -⟩)
    exact promoted
  · rintro e s (⟨_, ⟨⟩, -⟩ | ⟨error, ⟨⟩, unchanged⟩)
    refine ⟨?_, ?_⟩
    · rw [commitState_store, wrap_rename]
      split <;> exact nofun
    · rw [commitState_store, wrap_rename]
      intro certain
      rcases unchanged with rfl | renamed
      · rfl
      · rw [if_neg renamed] at certain
        exact absurd rfl certain

theorem safe_prepare {name : CandidateName} {content : Bytes} (d : Directory) :
    Safe (effect keys brokerUid calm) Eq (Advances cipher authorityId keys)
      (Reports d.canonical fun _ after => after.canonical = d.canonical ∧ after.candidates.get? name = some content)
      (inPhase .notRenamed (writeCandidate name content) : StoreProgram Key Unit).run d := by
  refine safe_inPhase (safe_writeCandidate d) (fun _ _ => id) ?_
  rintro e s ⟨same, state⟩
  rw [Reports, commitState_store]
  exact ⟨state, fun _ => same⟩

theorem settles_settleRename :
    Settles keys brokerUid calm (fun _ => False) (fun _ _ => True) (settleRename : StoreProgram Key Unit) :=
  (settles_fault .afterRename).after <| settles_assertDirectoryCurrent.after <| settles_assertHeld.after
    settles_syncDirectory

theorem settles_verifyCommitted (r : StoreRecord) (keyId : OpaqueId) :
    Settles keys brokerUid calm (fun _ => False) (fun committed _ => committed = (r, keyId))
      (verifyCommitted cipher authorityId brokerUid r keyId) := by
  refine (settles_fault .afterDirectorySync).after <| settles_assertDirectoryCurrent.after <|
    settles_assertHeld.after ?_
  have read : Settles keys brokerUid calm _ _ (readCanonical cipher authorityId brokerUid false) :=
    settles_readCanonical false
  refine Settles.bind (read.mono nofun fun _ _ => id) fun current => ?_
  cases current with
  | none => exact Settles.fail fun _ _ => And.right
  | some committed =>
      show Settles _ _ _ _ _ (if committed = (r, keyId) then _ else _)
      split
      · rename_i same
        exact settles_assertDirectoryCurrent.after (Settles.pure fun _ _ => same)
      · refine Quiet.done fun d => ⟨?_, fun _ => And.right⟩
        rw [commitState_store]
        exact nofun

theorem settles_activeKey :
    Settles keys brokerUid calm (fun _ => False) (fun active _ => active.2 = keys active.1)
      (activeKey : StoreProgram Key (OpaqueId × Key)) := by
  refine Settles.bind (Settles.ask rfl) fun answer => ?_
  cases answer with
  | active keyId key => exact Settles.pure fun _ effected => effected.1.2 keyId key rfl
  | throws => exact Settles.fail fun _ _ => And.right
  | malformed => exact Settles.fail fun _ _ => And.right
  | invalidId => exact Settles.fail fun _ _ => And.right
  | invalidKey => exact Settles.fail fun _ _ => And.right

theorem settles_twelveBytes (message : String) :
    Settles keys brokerUid calm (fun _ => False) (fun _ _ => True) (twelveBytes message : StoreProgram Key (Block 12)) := by
  refine Settles.bind (Settles.ask rfl) fun answer => ?_
  cases answer with
  | error error => exact Quiet.done fun _ => ⟨commitState_external error, fun _ => And.right⟩
  | ok block =>
      cases block with
      | some block => exact Settles.pure fun _ _ => trivial
      | none => exact Settles.fail fun _ _ => And.right

theorem safe_install {name : CandidateName} {raw : JsString} {r : StoreRecord} {keyId : OpaqueId} {d : Directory}
    (decrypts : decryptEnvelope cipher authorityId keys (decodeUtf8 (encodeUtf8 raw)) = .ok (r, keyId))
    (follows : Follows cipher authorityId keys d r) :
    Safe (effect keys brokerUid calm) Eq (Advances cipher authorityId keys)
      (Reports d.canonical fun committed after => committed = (r, keyId) ∧
        canonicalRecord cipher authorityId keys after = some (r, keyId))
      (install cipher authorityId brokerUid name raw r keyId).run d := by
  refine Safe.bindExcept (safe_prepare d) ?_ fun e s ends => ends
  rintro _ written ⟨canonical, content⟩
  have installed : canonicalRecord cipher authorityId keys (written.promote name) = some (r, keyId) :=
    (canonicalRecord_eq_some content).mpr decrypts
  have advances : Advances cipher authorityId keys written (written.promote name) := by
    refine .inr ⟨(r, keyId), installed, ?_, r.succeeds.symm⟩
    rwa [Follows, canonicalRecord, canonical]
  rw [← canonical]
  refine Safe.bindExcept (safe_renameWhileHeld advances) ?_ fun e s ends => ends
  rintro _ _ rfl
  refine Safe.bindExcept (safe_late (.inl rfl) settles_settleRename) ?_ fun e s ends => ends
  rintro _ _ ⟨rfl, -⟩
  refine (safe_late (.inr rfl) (settles_verifyCommitted r keyId)).mono (fun _ _ => id) (Reports.mono ?_)
  rintro committed _ ⟨rfl, same⟩
  exact ⟨same, installed⟩

/-- A commit installs its record, or reports that it has not or may have. -/
theorem safe_commit {r : StoreRecord} {d : Directory} (follows : Follows cipher authorityId keys d r) :
    Safe (effect keys brokerUid calm) Eq (Advances cipher authorityId keys)
      (Reports d.canonical fun committed after => committed.1 = r ∧
        canonicalRecord cipher authorityId keys after = some committed)
      (commit cipher authorityId brokerUid r).run d := by
  refine settles_activeKey.before ?_ fun e state => ⟨state, fun _ => rfl⟩
  rintro ⟨keyId, key⟩ named
  obtain rfl : key = keys keyId := named
  refine (settles_twelveBytes _).before (fun nonce _ => ?_) fun e state => ⟨state, fun _ => rfl⟩
  refine (Settles.check fun _ _ => False.elim).before ?_ fun e state => ⟨state, fun _ => rfl⟩
  intro raw encrypted
  refine (settles_twelveBytes _).before (fun suffix _ => ?_) fun e state => ⟨state, fun _ => rfl⟩
  refine (safe_install (decryptEnvelope_encryptRecord cipher authorityId keys encrypted) follows).mono
    (fun _ _ => id) (Reports.mono ?_)
  rintro committed after ⟨rfl, installed⟩
  exact ⟨rfl, installed⟩

end Writing

end PortableCodex.AuthStore
