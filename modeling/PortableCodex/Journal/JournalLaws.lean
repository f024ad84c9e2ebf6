import PortableCodex.Journal.RecordLaws

/-!
What a call of the operation journal does to the files of its operation ID.
-/

namespace PortableCodex.Journal

open Js Traces
open ProviderState (OpaqueId)

variable {A B : Type} {trustRenameOutcome : Bool} {d : RecordFiles} {content : Option Bytes}
  {post last : A → RecordFiles → Prop} {currentUid : Nat} {operationId : OpaqueId} {r : JournalRecord}

/-! ### Parts that write -/

/-- How a part of a call ends that began with this content: an error that does not leave the outcome open leaves
the content as it was. -/
def Reports (content : Option Bytes) (post : A → RecordFiles → Prop) : Except Thrown A → RecordFiles → Prop
  | .ok a, after => post a after
  | .error e, after => e.commitState ≠ .committed ∧ (e.commitState ≠ .uncertain → after.content = content)

theorem Keeps.advances {before after : RecordFiles} (keeps : Keeps before after) : Advances before after :=
  .inl keeps.content

/-- A record installed, within the size limit, where it follows what was there. -/
def Installed (r : JournalRecord) (before after : RecordFiles) : Prop :=
  after.content = before.content ∨
    (after.content = some r.bytes ∧ Follows before r ∧ r.bytes.length ≤ maxCanonicalBytes)

theorem Installed.advances {r : JournalRecord} {before after : RecordFiles} (installed : Installed r before after) :
    Advances before after := by
  rcases installed with same | ⟨held, follows, -⟩
  · exact .inl same
  · exact .inr ⟨r, held, follows⟩

theorem Keeps.installed {r : JournalRecord} {before after : RecordFiles} (keeps : Keeps before after) :
    Installed r before after := .inl keeps.content

/-- A part that installs at most this record. -/
def Installs (trustRenameOutcome : Bool) (r : JournalRecord) (d : RecordFiles) (content : Option Bytes)
    (post : A → RecordFiles → Prop) (part : JournalProgram A) : Prop :=
  Safe (effect trustRenameOutcome) Eq (Installed r) (Reports content post) part.run d

theorem Installs.bind {last : B → RecordFiles → Prop} {part : JournalProgram A} {next : A → JournalProgram B}
    (first : Installs trustRenameOutcome r d content post part)
    (rest : ∀ a s, post a s → Installs trustRenameOutcome r s content last (next a)) :
    Installs trustRenameOutcome r d content last (part >>= next) :=
  Safe.bindExcept first rest fun _ _ ends => ends

theorem Reads.installs {part : JournalProgram A} (reads : Reads trustRenameOutcome d post part)
    (same : d.content = content) :
    Installs trustRenameOutcome r d content (fun a after => Keeps d after ∧ post a after) part := by
  refine Safe.mono reads (fun _ _ => Keeps.installed) ?_
  rintro (e | a) s ⟨keeps, ends⟩
  · exact ⟨ends, fun _ => keeps.content.trans same⟩
  · exact ⟨keeps, ends⟩

/-- A part that writes nothing, before one that does. -/
theorem Reads.before {last : B → RecordFiles → Prop} {part : JournalProgram A} {next : A → JournalProgram B}
    (reads : Reads trustRenameOutcome d post part) (same : d.content = content)
    (rest : ∀ a s, Keeps d s → post a s → Installs trustRenameOutcome r s content last (next a)) :
    Installs trustRenameOutcome r d content last (part >>= next) :=
  (reads.installs same).bind fun a s ends => rest a s ends.1 ends.2

/-- A part whose errors leave the outcome open: it can say nothing wrong about the content. -/
theorem Reads.late {part : JournalProgram A} (reads : Reads trustRenameOutcome d post part) :
    Installs trustRenameOutcome r d content (fun a after => Keeps d after ∧ post a after)
      (Journal.orUncertain part) := by
  refine Safe.tryCatch (Safe.mono reads (fun _ _ => Keeps.installed) fun _ _ => id) (fun _ _ ends => ends) ?_
  intro e s _
  exact ⟨uncertain_notCommitted, fun certain => absurd rfl certain⟩

theorem Installs.orFail {part : JournalProgram A} {code : ErrorCode}
    (installs : Installs trustRenameOutcome r d content post part) :
    Installs trustRenameOutcome r d content post (orFail code part) := by
  refine Safe.tryCatch installs (fun _ _ ends => ends) ?_
  rintro (error | _) s ⟨state, certain⟩
  · exact ⟨state, certain⟩
  · refine ⟨external_notCommitted, fun _ => certain ?_⟩
    intro same
    cases same

theorem installs_ask {op : JournalOp} {next : JournalAnswer op → JournalProgram A}
    (step : ∀ answer after, Truthful trustRenameOutcome d op answer after →
      Installed r d after ∧ Installs trustRenameOutcome r after content last (next answer)) :
    Installs trustRenameOutcome r d content last (ask op >>= next) := by
  rintro _ rfl answer after truthful
  exact step answer after truthful

theorem steady_assertPathMissing (path : FileRole) : Steady trustRenameOutcome (assertPathMissing path) := by
  intro d
  refine (Reads.ask rfl).bind fun answer s _ _ => ?_
  match answer with
  | .missing => exact Reads.pure trivial
  | .failed => exact Reads.fail
  | .found _ => exact Reads.fail

theorem steady_assertCanonicalPrecondition (visible : Option (Identity × JournalRecord)) :
    Steady trustRenameOutcome (assertCanonicalPrecondition currentUid visible) := by
  refine steady_assertIdentityCurrent.bind fun _ => ?_
  cases visible with
  | none => exact (steady_assertPathMissing .canonical).bind fun _ => steady_assertIdentityCurrent
  | some found =>
      refine Steady.orFail fun d => (Reads.ask rfl).bind fun answer s _ _ => ?_
      match answer with
      | .missing => exact Reads.throw external_notCommitted
      | .failed => exact Reads.throw external_notCommitted
      | .opened =>
          refine (steady_assertRecordPathIdentity _ _ _ _).then fun _ _ _ => ?_
          refine (Reads.ask rfl).bind fun _ _ _ _ => Reads.valueOf.bind fun _ _ _ _ => ?_
          refine Reads.check.bind fun _ _ _ _ => (steady_assertRecordPathIdentity _ _ _ _).then fun _ _ _ => ?_
          refine steady_assertIdentityCurrent.then fun _ _ _ => (Reads.ask rfl).bind fun answer s _ _ => ?_
          exact Steady.succeed answer s

/-- The checks of the temporary file before the rename. -/
theorem reads_preparation (visible : Option (Identity × JournalRecord)) (r : JournalRecord) (metadata : FileMetadata) :
    Reads trustRenameOutcome d (fun _ _ => True) (do
      check (metadata.Protected currentUid ∧ metadata.size = r.bytes.length) .journalIoFailed
      fault .afterTempSync
      assertRecordPathIdentity currentUid .temporary .temporary metadata.identity r.bytes.length
      assertCurrent
      assertHeld
      fault .beforeRename
      assertRecordPathIdentity currentUid .temporary .temporary metadata.identity r.bytes.length
      assertCurrent
      assertHeld
      assertRecordPathIdentity currentUid .temporary .temporary metadata.identity r.bytes.length
      assertCanonicalPrecondition currentUid visible
      pure metadata.identity) := by
  refine Reads.check.bind fun _ _ _ _ => (steady_fault _).then fun _ _ _ => ?_
  refine (steady_assertRecordPathIdentity _ _ _ _).then fun _ _ _ => steady_assertCurrent.then fun _ _ _ => ?_
  refine steady_assertHeld.then fun _ _ _ => (steady_fault _).then fun _ _ _ => ?_
  refine (steady_assertRecordPathIdentity _ _ _ _).then fun _ _ _ => steady_assertCurrent.then fun _ _ _ => ?_
  refine steady_assertHeld.then fun _ _ _ => (steady_assertRecordPathIdentity _ _ _ _).then fun _ _ _ => ?_
  exact (steady_assertCanonicalPrecondition visible).then fun _ _ _ => Reads.pure trivial

theorem installs_writeTemporaryRecord (visible : Option (Identity × JournalRecord)) (r : JournalRecord)
    (same : d.content = content) :
    Installs trustRenameOutcome r d content
      (fun _ after => after.content = content ∧ after.temporaryContent = some r.bytes)
      (writeTemporaryRecord currentUid visible r) := by
  refine Installs.orFail ?_
  refine (steady_assertCurrent d).before same fun _ s₁ keeps₁ _ => ?_
  have same₁ := keeps₁.content.trans same
  refine (steady_assertHeld s₁).before same₁ fun _ s₂ keeps₂ _ => ?_
  have same₂ := keeps₂.content.trans same₁
  refine installs_ask fun created s₃ creating => ?_
  have same₃ : s₃.content = s₂.content := by
    rcases creating with ⟨-, rfl⟩ | ⟨-, rfl⟩ <;> rfl
  refine ⟨.inl same₃, Reads.succeed.before (same₃.trans same₂) fun _ s₄ keeps₄ _ => ?_⟩
  have same₄ := keeps₄.content.trans (same₃.trans same₂)
  refine (Reads.ask rfl).before same₄ fun _ s₅ keeps₅ _ => ?_
  have same₅ := keeps₅.content.trans same₄
  refine Reads.succeed.before same₅ fun _ s₆ keeps₆ _ => installs_ask fun complete s₇ writing => ?_
  have same₆ := keeps₆.content.trans same₅
  obtain ⟨written, rfl, whole⟩ := writing
  refine ⟨.inl rfl, Reads.succeed.before same₆ fun _ s₈ keeps₈ ⟨_, told⟩ => ?_⟩
  obtain rfl := whole told
  have same₈ := keeps₈.content.trans same₆
  refine (Reads.ask rfl).before same₈ fun _ s₉ keeps₉ _ => ?_
  have same₉ := keeps₉.content.trans same₈
  refine Reads.succeed.before same₉ fun _ s₁₀ keeps₁₀ _ => ?_
  have same₁₀ := keeps₁₀.content.trans same₉
  refine (Reads.ask rfl).before same₁₀ fun _ s₁₁ keeps₁₁ _ => ?_
  have same₁₁ := keeps₁₁.content.trans same₁₀
  refine Reads.valueOf.before same₁₁ fun metadata s₁₂ keeps₁₂ _ => ?_
  have same₁₂ := keeps₁₂.content.trans same₁₁
  refine Safe.mono ((reads_preparation visible r metadata).installs same₁₂) (fun _ _ => id) ?_
  rintro (e | identity) s ends
  · exact ends
  · obtain ⟨keeps, -⟩ := ends
    have kept := keeps₈.trans <| keeps₉.trans <| keeps₁₀.trans <| keeps₁₁.trans <| keeps₁₂.trans keeps
    exact ⟨keeps.content.trans same₁₂, kept.temporary⟩

theorem installs_renameRecord {target : Option Identity} {r : JournalRecord} (same : d.content = content)
    (prepared : d.temporaryContent = some r.bytes) (follows : Follows d r)
    (fits : r.bytes.length ≤ maxCanonicalBytes) :
    Installs trustRenameOutcome r d content (fun _ after => after.content = some r.bytes)
      (renameRecord trustRenameOutcome target) := by
  refine installs_ask fun answer after renames => ?_
  rcases renames with ⟨unrenamed, rfl⟩ | ⟨-, rfl, told⟩
  · refine ⟨.inl rfl, ?_⟩
    match answer, unrenamed with
    | .renamed, unrenamed => exact absurd rfl unrenamed
    | .failed renameOutcome, _ =>
        show Installs _ _ _ _ _ (if _ then _ else _)
        split
        · exact ⟨(by intro h; cases h), fun _ => same⟩
        · exact ⟨uncertain_notCommitted, fun certain => absurd rfl certain⟩
  · refine ⟨.inr ⟨prepared, follows, fits⟩, ?_⟩
    match answer, told with
    | .renamed, _ => exact prepared
    | .failed renameOutcome, told =>
        show Installs _ _ _ _ _ (if _ then _ else _)
        split
        · rename_i trusted
          exact absurd (congrArg RenameAnswer.failed trusted.2) (told trusted.1)
        · exact ⟨uncertain_notCommitted, fun certain => absurd rfl certain⟩

theorem installs_settleRecord (identity : Identity) (r : JournalRecord) :
    Installs trustRenameOutcome r d content
      (fun readback after => after.content = some readback.bytes ∧ readback.bytes = r.bytes)
      (settleRecord currentUid operationId identity r) := by
  have reads : Reads trustRenameOutcome d
      (fun readback after => after.content = some readback.bytes ∧ readback.bytes = r.bytes) (do
        let verifyPath := assertRecordPathIdentity currentUid .temporary .canonical identity r.bytes.length
        assertPathMissing .temporary
        verifyPath
        fault .afterRename
        verifyPath
        syncDirectory
        fault .afterDirectorySync
        assertCurrent
        assertHeld
        fault .beforeReadback
        let readback ← readSameRecord currentUid operationId identity r
        fault .afterReadback
        verifyPath
        assertCurrent
        assertHeld
        verifyPath
        succeed (← ask (.closeFile .temporary))
        pure readback) := by
    have verified : Steady trustRenameOutcome
        (assertRecordPathIdentity currentUid .temporary .canonical identity r.bytes.length) :=
      steady_assertRecordPathIdentity _ _ _ _
    have synced : Steady trustRenameOutcome syncDirectory := Steady.check .syncDirectory rfl (· = true) _
    refine (steady_assertPathMissing _).then fun _ _ _ => verified.then fun _ _ _ => ?_
    refine (steady_fault _).then fun _ _ _ => ?_
    refine verified.then fun _ _ _ => synced.then fun _ _ _ => (steady_fault _).then fun _ _ _ => ?_
    refine steady_assertCurrent.then fun _ _ _ => steady_assertHeld.then fun _ _ _ => ?_
    refine (steady_fault _).then fun _ _ _ => ?_
    refine (reads_readSameRecord identity r).bind fun readback s₁ _ ⟨shown, same⟩ => ?_
    refine (steady_fault _).then fun _ s₂ keeps₂ => verified.then fun _ s₃ keeps₃ => ?_
    refine steady_assertCurrent.then fun _ s₄ keeps₄ => steady_assertHeld.then fun _ s₅ keeps₅ => ?_
    refine verified.then fun _ s₆ keeps₆ => (Reads.ask rfl).bind fun _ s₇ keeps₇ _ => ?_
    refine Reads.succeed.bind fun _ s₈ keeps₈ _ => Reads.pure ⟨?_, same⟩
    have kept := keeps₂.trans <| keeps₃.trans <| keeps₄.trans <| keeps₅.trans <| keeps₆.trans <| keeps₇.trans keeps₈
    exact (shown.kept kept).content
  have late : Installs trustRenameOutcome r d content _ (settleRecord currentUid operationId identity r) := reads.late
  refine Safe.mono late (fun _ _ => id) ?_
  rintro (e | readback) s ends
  · exact ends
  · exact ends.2

/-- A write installs its record, or reports that it has not or may have. -/
theorem installs_writeCanonicalRecord {visible : Option (Identity × JournalRecord)} {r : JournalRecord}
    (same : d.content = content) (follows : Follows d r) :
    Installs trustRenameOutcome r d content
      (fun published after => after.content = some published.2.bytes ∧ published.2.bytes = r.bytes)
      (writeCanonicalRecord currentUid operationId trustRenameOutcome visible r) := by
  refine Reads.checked.before same fun _ s₁ keeps₁ ⟨_, checked⟩ => ?_
  have fits := (canonicalBytes_iff.mp checked).1
  have same₁ := keeps₁.content.trans same
  refine (installs_writeTemporaryRecord visible r same₁).bind fun identity s₂ ⟨same₂, prepared⟩ => ?_
  have follows₂ : Follows s₂ r := by rwa [Follows, same₂, ← same]
  refine (installs_renameRecord same₂ prepared follows₂ fits).bind fun _ s₃ _ => ?_
  exact (installs_settleRecord identity r).bind fun readback s₄ ends => ends

/-! ### Plans -/

/-- The record that a transition asks for. -/
def targetRecord (input : OperationInput) (requestedState : State) : JournalRecord :=
  makeRecord input (.named requestedState) (if requestedState = .prepared then .null else input.materialization)

/-- What a plan may be. -/
def PlanFor (input : OperationInput) (requestedState : State) (requireAbsent : Bool)
    (existing : Option JournalRecord) : Plan → Prop
  | .replay r => existing = some r ∧ SameOperation r input ∧ requireAbsent = false
  | .install r => r = targetRecord input requestedState ∧ (requireAbsent = true → existing = none) ∧
      ((existing = none ∧ requestedState = .prepared) ∨ ∃ earlier, existing = some earlier ∧ Next earlier r)

theorem next_targetRecord {existing : JournalRecord} {input : OperationInput} {state requestedState : State}
    (same : SameOperation existing input) (held : existing.state = .named state)
    (adjacent : requestedState.rank = state.rank + 1)
    (materialization : state ≠ .prepared → canonicalEqual existing.materialization input.materialization) :
    Next existing (targetRecord input requestedState) := by
  have later : requestedState ≠ .prepared := by
    rintro rfl
    cases state <;> cases adjacent
  refine { operation := ⟨same.operationId, same.binding, same.request, same.result⟩, ranks := ?_,
           materialization := ?_, adjacent := ?_ }
  · exact ⟨state, requestedState, held, rfl, by omega⟩
  · intro started
    rw [targetRecord, if_neg later]
    exact materialization fun prepared => started (held.trans (congrArg _ prepared))
  · intro s s' first second
    obtain rfl := StateValue.named.inj (held.symm.trans first)
    obtain rfl := StateValue.named.inj second
    exact adjacent

theorem planTransition_for {input : OperationInput} {requestedState : State} {requireAbsent : Bool}
    {existing : Option JournalRecord} {plan : Plan}
    (h : planTransition input requestedState requireAbsent existing = .ok plan) :
    PlanFor input requestedState requireAbsent existing plan := by
  obtain ⟨fresh, rest⟩ := ensure_bind_ok.mp h
  cases existing with
  | none =>
      cases requestedState with
      | prepared =>
          obtain rfl := Except.ok.inj rest
          exact ⟨rfl, fun _ => rfl, .inl ⟨rfl, rfl⟩⟩
      | materialized => cases rest
      | committed => cases rest
  | some r =>
      have old : requireAbsent = false := by
        cases requireAbsent with
        | false => rfl
        | true => exact absurd ⟨rfl, rfl⟩ fresh
      have absent : requireAbsent = true → some r = none := fun required => nomatch required.symm.trans old
      cases requestedState with
      | prepared =>
          obtain ⟨same, last⟩ := ensure_bind_ok.mp rest
          obtain rfl := Except.ok.inj last
          exact ⟨rfl, same, old⟩
      | materialized =>
          obtain ⟨same, rest⟩ := ensure_bind_ok.mp rest
          change (if _ then _ else _) = _ at rest
          split at rest
          · obtain ⟨-, last⟩ := ensure_bind_ok.mp rest
            obtain rfl := Except.ok.inj last
            exact ⟨rfl, same, old⟩
          · obtain ⟨held, last⟩ := ensure_bind_ok.mp rest
            obtain rfl := Except.ok.inj last
            exact ⟨rfl, absent, .inr ⟨r, rfl, next_targetRecord same held rfl fun other => absurd rfl other⟩⟩
      | committed =>
          obtain ⟨same, rest⟩ := ensure_bind_ok.mp rest
          change (if _ then _ else _) = _ at rest
          split at rest
          · obtain ⟨-, last⟩ := ensure_bind_ok.mp rest
            obtain rfl := Except.ok.inj last
            exact ⟨rfl, same, old⟩
          · obtain ⟨held, rest⟩ := ensure_bind_ok.mp rest
            obtain ⟨equal, last⟩ := ensure_bind_ok.mp rest
            obtain rfl := Except.ok.inj last
            exact ⟨rfl, absent, .inr ⟨r, rfl, next_targetRecord same held rfl fun _ => equal⟩⟩

end PortableCodex.Journal
