import PortableCodex.ProviderState.LockOrder
import PortableCodex.ProviderState.Ledger

/-!
Files after a lost lock.

`Within` says of a program that it changes no file after a rejected `assertHeld`, and returns only where none was
rejected. A program that takes changes back when it fails may not be rejected inside what it takes back. `run` does
this at two places, so no file is changed after a rejection exactly where these two checks are not rejected
(`unchangedAfterLoss_iff`).
-/

namespace PortableCodex.ProviderState.LockOrder

open Traces

/-- Whether a check was rejected, and the changes of files so far, the last one first. -/
structure Observed where
  lost : Bool
  changes : List FileChange
deriving DecidableEq

def untouched : Observed where
  lost := false
  changes := []

/-- No file is changed once a check was rejected. -/
def Settled (before after : Observed) : Prop :=
  before.lost = true → after.lost = true ∧ after.changes = before.changes

instance (before after : Observed) : Decidable (Settled before after) :=
  inferInstanceAs (Decidable (_ → _ ∧ _))

/-- What the operations do where the checks in `mayReject` can be rejected. -/
def effect (mayReject : Check → Prop) : Effect Op Answer Observed
  | before, .assertHeld check, answer, after =>
      (answer = true ∧ after = before) ∨ (answer = false ∧ mayReject check ∧ after = { before with lost := true })
  | before, .change fileChange, _, after => after = { before with changes := fileChange :: before.changes }
  | before, _, _, after => after = before

def Op.isCheck : Op → Bool
  | .assertHeld _ => true
  | _ => false

variable {mayReject : Check → Prop} {loses : Prop} {A B : Type}

theorem lost_of_effect {op : Op} {before after : Observed} {answer : Answer op} (unchecked : op.isCheck = false)
    (effected : effect mayReject before op answer after) : after.lost = before.lost := by
  cases op with
  | assertHeld check => cases unchecked
  | change fileChange =>
      obtain rfl : after = { before with changes := fileChange :: before.changes } := effected
      rfl
  | _ =>
      obtain rfl : after = before := effected
      rfl

/-! ### Programs that stop at a lost lock -/

/-- From a lock that is not lost, the program changes no file after a rejected check. It returns only where none was
rejected, and throws after a rejected one only if it `loses`. -/
def Within (mayReject : Check → Prop) (loses : Prop) (program : Action A) : Prop :=
  ∀ state, state.lost = false → Safe (effect mayReject) Eq Settled
    (fun result last => last.lost = false ∨ loses ∧ result = .error ()) program.run state

theorem Within.pure (value : A) : Within mayReject loses (Pure.pure value : Action A) :=
  fun _ unlost => .inl unlost

theorem Within.fail : Within mayReject loses (fail : Action A) := fun _ unlost => .inl unlost

theorem Within.bind {program : Action A} {next : A → Action B} (first : Within mayReject loses program)
    (rest : ∀ value, Within mayReject loses (next value)) : Within mayReject loses (program >>= next) := by
  intro state unlost
  refine Safe.bindExcept (first state unlost) ?_ ?_
  · rintro value last (kept | ⟨-, thrown⟩)
    · exact rest value last kept
    · cases thrown
  · rintro error last (kept | ⟨may, -⟩)
    · exact .inl kept
    · exact .inr ⟨may, rfl⟩

/-- A program that no rejected check leaves may be taken back. -/
theorem Within.tryCatch {program : Action A} {handler : Unit → Action A} (body : Within mayReject False program)
    (handles : ∀ error, Within mayReject loses (handler error)) :
    Within mayReject loses (tryCatch program handler) := by
  intro state unlost
  refine Safe.tryCatch (body state unlost) ?_ ?_
  · rintro value last (kept | ⟨never, -⟩)
    · exact .inl kept
    · exact never.elim
  · rintro error last (kept | ⟨never, -⟩)
    · exact handles error last kept
    · exact never.elim

theorem Within.ite {c : Prop} [Decidable c] {first second : Action A} (holds : c → Within mayReject loses first)
    (fails : ¬ c → Within mayReject loses second) : Within mayReject loses (if c then first else second) := by
  split
  · exact holds ‹_›
  · exact fails ‹_›

theorem within_ask {op : Op} (unchecked : op.isCheck = false) : Within mayReject loses (ask op) := by
  rintro state unlost before rfl answer after effected
  refine ⟨?_, .inl ((lost_of_effect unchecked effected).trans unlost)⟩
  intro lost
  rw [unlost] at lost
  cases lost

theorem within_require (holds : Bool) : Within mayReject loses (require holds) := by
  cases holds with
  | false => exact Within.fail
  | true => exact Within.pure ()

theorem within_found (value : Option A) : Within mayReject loses (found value) := by
  cases value with
  | none => exact Within.fail
  | some value => exact Within.pure value

theorem within_assertHeld {check : Check} (free : mayReject check → loses) :
    Within mayReject loses (assertHeld check) := by
  rintro state unlost before rfl answer after (⟨rfl, rfl⟩ | ⟨rfl, rejected, rfl⟩)
  · exact ⟨fun lost => absurd lost (by rw [unlost]; exact Bool.false_ne_true), .inl unlost⟩
  · refine ⟨?_, .inr ⟨free rejected, rfl⟩⟩
    intro lost
    rw [unlost] at lost
    cases lost

theorem within_onlyIf {holds : Bool} {step : Action Unit} (taken : Within mayReject loses step) :
    Within mayReject loses (onlyIf holds step) :=
  Within.ite (fun _ => taken) fun _ => Within.pure ()

/-- An operation whose rejection is thrown. -/
theorem within_demand {op : Op} {demand : Answer op → Action A} (unchecked : op.isCheck = false)
    (demands : ∀ answer, Within mayReject loses (demand answer)) : Within mayReject loses (ask op >>= demand) :=
  (within_ask unchecked).bind demands

theorem within_change (fileChange : FileChange) : Within mayReject loses (change fileChange) :=
  within_demand rfl within_require

theorem within_assertCurrent : Within mayReject loses assertCurrent := within_demand rfl within_require

theorem within_sync : Within mayReject loses sync := within_demand rfl within_require

theorem within_syncDirectory : Within mayReject loses syncDirectory := within_demand rfl within_require

theorem within_read (file : File) : Within mayReject loses (read file) := within_demand rfl within_require

theorem within_readTrustedLedgerHead : Within mayReject loses readTrustedLedgerHead := within_demand rfl within_found

theorem within_assertHead (head : LedgerHead) : Within mayReject loses (assertHead head) :=
  within_readTrustedLedgerHead.bind fun _ => within_require _

theorem within_nextHead : Within mayReject loses nextHead := within_demand rfl within_found

/-! ### Files -/

theorem within_createNamedStateFile (file : File) : Within mayReject loses (createNamedStateFile file) :=
  (within_change _).bind fun _ => within_read file

theorem within_unlinkSafeStateFile (file : File) : Within mayReject loses (unlinkSafeStateFile file) := by
  refine within_demand rfl fun answer => (within_found answer).bind fun present => ?_
  apply Within.ite
  · intro _
    exact (within_change _).bind fun _ => Within.pure true
  · intro _
    exact Within.pure false

theorem within_unlinkStateFiles (files : List File) : Within mayReject loses (unlinkStateFiles files) := by
  induction files with
  | nil => exact Within.pure false
  | cons file files ih =>
      exact (within_unlinkSafeStateFile file).bind fun removed => ih.bind fun others => Within.pure _

theorem within_cleanupFiles (files : List File) : Within mayReject loses (cleanupFiles files) := by
  refine (within_unlinkStateFiles files).bind fun removed => ?_
  exact within_onlyIf within_syncDirectory

theorem within_createAdoptionMarker (generation : Nat) (phase : Phase) :
    Within mayReject loses (createAdoptionMarker generation phase) := by
  refine (within_cleanupFiles _).bind fun _ => within_demand rfl fun answer => ?_
  refine (within_found answer).bind fun present => (within_require _).bind fun _ => ?_
  refine (within_createNamedStateFile _).bind fun _ => (within_change _).bind fun _ => within_sync.bind fun _ => ?_
  refine (within_read _).bind fun _ => (within_change _).bind fun _ => (within_read _).bind fun _ => ?_
  exact within_syncDirectory.bind fun _ => within_assertCurrent

theorem within_writeFrames (file : File) (frames : Nat) : Within mayReject loses (writeFrames file frames) := by
  induction frames with
  | zero => exact Within.pure ()
  | succ frames ih => exact (within_change _).bind fun _ => ih

theorem within_writeGeneration (generation : Nat) : Within mayReject loses (writeGeneration generation) := by
  refine (within_createNamedStateFile _).bind fun _ => ?_
  have frames : Within mayReject loses (writeCheckpointFrames generation) :=
    within_demand rfl fun answer => (within_found answer).bind fun count => within_writeFrames _ count
  refine frames.bind fun _ => within_sync.bind fun _ => within_sync.bind fun _ => ?_
  exact (within_read _).bind fun _ => (within_read _).bind fun _ => within_syncDirectory

/-! ### Paths of an operation -/

section Paths

/-- The checks whose rejection ends the operation. -/
theorem within_check (check : Check) : Within mayReject True (assertHeld check) := within_assertHeld fun _ => trivial

/-- A check with what is done first after it. -/
theorem within_checked {check : Check} {rest : Action A} (done : Within mayReject True rest) :
    Within mayReject True (do assertHeld check; assertCurrent; rest) :=
  (within_check check).bind fun _ => within_assertCurrent.bind fun _ => done

theorem within_truncateActiveTail (head : LedgerHead) : Within mayReject True (truncateActiveTail head) := by
  refine within_checked ((within_assertHead head).bind fun _ => (within_read _).bind fun _ => ?_)
  refine (within_change _).bind fun _ => within_sync.bind fun _ => ?_
  exact (within_check .afterTruncation).bind fun _ => within_read _

theorem within_recoverTail (allowTruncate : Bool) (head : LedgerHead) :
    Within mayReject True (recoverTail allowTruncate head) := by
  refine (within_require _).bind fun _ => (within_truncateActiveTail head).bind fun _ => ?_
  exact within_demand rfl fun answer => (within_found answer).bind fun tail => within_require _

theorem within_readGenerationState (allowTruncate : Bool) (head : LedgerHead) :
    Within mayReject True (readGenerationState allowTruncate head) := by
  refine (within_onlyIf (within_read _)).bind fun _ => (within_read _).bind fun _ => ?_
  refine within_demand rfl fun answer => (within_found answer).bind fun tail => ?_
  exact (within_onlyIf (within_recoverTail allowTruncate head)).bind fun _ => within_read _

theorem within_loadGenerationState (allowTruncate : Bool) (head : LedgerHead) :
    Within mayReject True (loadGenerationState allowTruncate head) := by
  apply Within.ite
  · intro _
    exact Within.pure ()
  · intro _
    refine (within_onlyIf (within_read _)).bind fun _ => (within_read _).bind fun _ => ?_
    exact within_demand rfl fun current => within_onlyIf (within_readGenerationState allowTruncate head)

theorem within_finishVerifiedV2Adoption (marker : AdoptionMarker) (verified : Bool) :
    Within mayReject True (finishVerifiedV2Adoption marker verified) := by
  refine within_checked (within_demand rfl fun answer => (within_require answer).bind fun _ => ?_)
  refine within_checked ((within_assertHead _).bind fun _ => ?_)
  refine (within_onlyIf (within_createAdoptionMarker _ _)).bind fun _ => ?_
  refine within_checked ((within_cleanupFiles _).bind fun _ => ?_)
  refine within_checked ((within_cleanupFiles _).bind fun _ => ?_)
  exact within_checked ((within_cleanupFiles _).bind fun _ => Within.pure _)

theorem within_resolveAdoption (marker : AdoptionMarker) (verified : Bool) :
    Within mayReject True (resolveAdoption marker verified) := by
  refine within_demand rfl fun outcome => ?_
  cases outcome with
  | advanced => exact within_finishVerifiedV2Adoption marker verified
  | unchanged =>
      refine (within_cleanupFiles _).bind fun _ => ?_
      exact within_checked ((within_cleanupFiles _).bind fun _ => Within.fail)
  | unknown => exact Within.fail

theorem within_recoverV2AdoptionMaterial (marker : AdoptionMarker) (verified : Bool) :
    Within mayReject True (recoverV2AdoptionMaterial marker verified) := by
  refine (within_loadGenerationState _ _).bind fun _ => within_demand rfl fun answer => ?_
  refine (within_require answer).bind fun _ => (within_loadGenerationState _ _).bind fun _ => ?_
  exact within_checked (within_resolveAdoption marker verified)

theorem within_recoverMarked (trustedHead : LedgerHead) (verified : Bool) (marker : AdoptionMarker) :
    Within mayReject True (recoverMarked trustedHead verified marker) := by
  refine within_demand rfl fun answer => (within_found answer).bind fun presence => ?_
  apply Within.ite
  · intro _
    refine (within_require _).bind fun _ => ?_
    apply Within.ite
    · intro _
      exact within_recoverV2AdoptionMaterial marker true
    · intro _
      exact (within_loadGenerationState _ _).bind fun _ => within_finishVerifiedV2Adoption marker true
  · intro _
    refine (within_require _).bind fun _ => (within_require _).bind fun _ => ?_
    exact within_recoverV2AdoptionMaterial marker false

theorem within_recoverV2AdoptionIfNeeded (trustedHead : LedgerHead) :
    Within mayReject True (recoverV2AdoptionIfNeeded trustedHead) := by
  rw [recoverV2AdoptionIfNeeded]
  split
  · exact Within.pure none
  · refine (within_cleanupFiles _).bind fun _ => within_demand rfl fun pending => ?_
    refine (within_found pending).bind fun pending => within_demand rfl fun verified => ?_
    refine (within_found verified).bind fun verified => (within_require _).bind fun _ => ?_
    split
    · exact (within_recoverMarked _ _ _).bind fun head => Within.pure _
    · have absent : Within mayReject True (assertNoPredecessor trustedHead) :=
        within_demand rfl fun answer => (within_found answer).bind fun version => within_require _
      exact (within_onlyIf absent).bind fun _ => Within.pure none

theorem within_nextGeneration (head : LedgerHead) : Within mayReject loses (nextGeneration head) :=
  Within.ite (fun _ => Within.pure _) fun _ => Within.fail

/-- Where the check before the marker is not rejected, a candidate is only discarded while the lock is held. -/
theorem within_prepareAdoption (kept : ¬ mayReject .beforeMarker) (expectedHead : LedgerHead) (generation : Nat) :
    Within mayReject False (prepareAdoption expectedHead generation) := by
  refine (within_writeGeneration generation).bind fun _ => within_nextHead.bind fun nextHead => ?_
  refine (within_read _).bind fun _ => (within_assertHeld kept).bind fun _ => within_assertCurrent.bind fun _ => ?_
  refine (within_assertHead _).bind fun _ => (within_createAdoptionMarker _ _).bind fun _ => ?_
  exact Within.pure _

theorem within_adoptV2Generation (kept : ¬ mayReject .beforeMarker) (expectedHead : LedgerHead) :
    Within mayReject True (adoptV2Generation expectedHead) := by
  refine (within_require _).bind fun _ => (within_loadGenerationState _ _).bind fun _ => ?_
  refine within_demand rfl fun answer => (within_require answer).bind fun _ => ?_
  refine (within_nextGeneration _).bind fun generation => ?_
  refine within_checked ((within_assertHead _).bind fun _ => (within_cleanupFiles _).bind fun _ => ?_)
  refine (within_createNamedStateFile _).bind fun _ => ?_
  have discards : Within mayReject True (discardCandidate generation) :=
    (within_cleanupFiles _).bind fun _ => (within_cleanupFiles _).bind fun _ => Within.fail
  refine ((within_prepareAdoption kept expectedHead generation).tryCatch fun _ => discards).bind fun marker => ?_
  exact within_checked (within_resolveAdoption marker false)

theorem within_validateProjection (exactMode : Bool) (head : LedgerHead) :
    Within mayReject loses (validateProjection exactMode head) :=
  within_onlyIf (within_demand rfl within_require)

/-- A rotation takes nothing back after a rejected check. -/
theorem within_rotateGeneration (exactMode : Bool) (expectedHead : LedgerHead) :
    Within mayReject True (rotateGeneration exactMode expectedHead) := by
  refine (within_nextGeneration _).bind fun generation => (within_createNamedStateFile _).bind fun _ => ?_
  refine (within_writeGeneration generation).bind fun _ => within_checked ?_
  refine (within_assertHead _).bind fun _ => within_nextHead.bind fun nextHead => (within_read _).bind fun _ => ?_
  refine within_demand rfl fun outcome => ?_
  cases outcome with
  | advanced =>
      refine (within_validateProjection _ _).bind fun _ => (within_cleanupFiles _).bind fun _ => ?_
      exact Within.pure _
  | unchanged => exact (within_cleanupFiles _).bind fun _ => Within.fail
  | unknown => exact Within.fail

theorem within_rollBack (head : LedgerHead) : Within mayReject loses (rollBack head) := by
  apply Within.ite
  · intro _
    exact (within_cleanupFiles _).bind fun _ => Within.fail
  · intro _
    exact (within_change _).bind fun _ => within_sync.bind fun _ => Within.fail

/-- Where the check after the write is not rejected, a frame is only taken back while the lock is held. -/
theorem within_writeDeltaEvent (kept : ¬ mayReject .afterAppend) (expectedHead : LedgerHead) :
    Within mayReject False (writeDeltaEvent expectedHead) := by
  refine (within_change _).bind fun _ => within_sync.bind fun _ => ?_
  refine (within_onlyIf within_syncDirectory).bind fun _ => ?_
  refine (within_assertHeld kept).bind fun _ => (within_read _).bind fun _ => within_nextHead.bind fun nextHead => ?_
  refine within_demand rfl fun answer => (within_found answer).bind fun tail => (within_require _).bind fun _ => ?_
  exact (within_read _).bind fun _ => Within.pure _

theorem within_openLedger (expectedHead : LedgerHead) : Within mayReject loses (openLedger expectedHead) :=
  Within.ite (fun _ => within_createNamedStateFile _) fun _ => within_read _

theorem within_appendDeltaEvent (kept : ¬ mayReject .afterAppend) (exactMode : Bool) (expectedHead : LedgerHead) :
    Within mayReject True (appendDeltaEvent exactMode expectedHead) := by
  refine within_demand rfl fun answer => (within_found answer).bind fun _ => ?_
  refine (within_openLedger expectedHead).bind fun _ => ?_
  refine within_checked ((within_assertHead _).bind fun _ => ?_)
  refine ((within_writeDeltaEvent kept expectedHead).tryCatch fun _ => within_rollBack _).bind fun nextHead => ?_
  refine within_demand rfl fun outcome => ?_
  cases outcome with
  | advanced => exact (within_validateProjection _ _).bind fun _ => Within.pure _
  | unchanged => exact within_rollBack _
  | unknown => exact Within.fail

theorem within_append (kept : ¬ mayReject .afterAppend) (exactMode : Bool) (head : LedgerHead) :
    Within mayReject True (append exactMode head) := by
  have rotates : Within mayReject True (rotateIfRequired exactMode head) := by
    apply Within.ite
    · intro _
      exact within_rotateGeneration exactMode head
    · intro _
      refine within_demand rfl fun answer => (within_found answer).bind fun required => ?_
      exact Within.ite (fun _ => within_rotateGeneration exactMode head) fun _ => Within.pure head
  exact rotates.bind fun head => within_appendDeltaEvent kept exactMode head

theorem within_cleanupPredecessor (head : LedgerHead) : Within mayReject loses (cleanupPredecessor head) :=
  Within.ite (fun _ => within_cleanupFiles _) fun _ => within_cleanupFiles _

theorem within_cleanupOrphans (head : LedgerHead) : Within mayReject loses (cleanupOrphans head) := by
  have before : Within mayReject loses (cleanupBefore head) :=
    Within.ite (fun _ => within_cleanupFiles _) fun _ => within_cleanupPredecessor head
  exact before.bind fun _ => within_onlyIf (within_cleanupFiles _)

theorem within_loadTrusted (kept : ¬ mayReject .beforeMarker) (exactMode : Bool) (trustedHead : LedgerHead) :
    Within mayReject True (loadTrusted exactMode trustedHead) := by
  have recovers : Within mayReject True (recover exactMode trustedHead) :=
    Within.ite (fun _ => within_recoverV2AdoptionIfNeeded trustedHead) fun _ => Within.pure none
  refine recovers.bind fun recovered => ?_
  cases recovered with
  | some head => exact Within.pure head
  | none =>
      apply Within.ite
      · intro _
        exact (within_cleanupPredecessor trustedHead).bind fun _ => within_adoptV2Generation kept trustedHead
      · intro _
        refine (within_cleanupOrphans trustedHead).bind fun _ => ?_
        exact (within_loadGenerationState _ _).bind fun _ => Within.pure _

theorem within_run (appends : ¬ mayReject .afterAppend) (adopts : ¬ mayReject .beforeMarker) (exactMode : Bool) :
    Within mayReject True (run exactMode) := by
  refine within_assertCurrent.bind fun _ => within_demand rfl fun answer => (within_require answer).bind fun _ => ?_
  refine within_checked (within_readTrustedLedgerHead.bind fun trustedHead => (within_require _).bind fun _ => ?_)
  refine (within_loadTrusted adopts exactMode trustedHead).bind fun head => (within_require _).bind fun _ => ?_
  refine (within_validateProjection _ _).bind fun _ => within_demand rfl fun answer => ?_
  refine (within_found answer).bind fun wanted => ?_
  apply Within.ite
  · intro _
    exact within_append appends exactMode head
  · intro _
    apply within_checked
    exact (within_onlyIf (within_assertHead _)).bind fun _ => Within.pure _

end Paths

/-! ### Runs -/

theorem Settled.trans {first second third : Observed} (before : Settled first second) (after : Settled second third) :
    Settled first third := by
  intro lost
  obtain ⟨lost', same⟩ := before lost
  obtain ⟨lost'', same'⟩ := after lost'
  exact ⟨lost'', same'.trans same⟩

instance : IsTrans Observed Settled := ⟨fun _ _ _ => Settled.trans⟩

/-- Whether a file is there after changes, the last one first. -/
def isPresent (file : File) : List FileChange → Bool
  | [] => false
  | .create created :: changes => created = file || isPresent file changes
  | .unlink removed :: changes => removed ≠ file && isPresent file changes
  | .rename moved target :: changes => target = file || moved ≠ file && isPresent file changes
  | _ :: changes => isPresent file changes

/-- Answers of a first operation in which everything goes well, except for one check. -/
def answer (rejected : Check) (state : Observed) (op : Op) : Answer op × Observed :=
  match op with
  | .assertHeld check => (check ≠ rejected, { state with lost := state.lost || check = rejected })
  | .change fileChange => (true, { state with changes := fileChange :: state.changes })
  | .cacheCurrent _ => (true, state)
  | .lookup file => (some (isPresent file state.changes), state)
  | .readTrustedLedgerHead => (some (genesisCache .v2).head, state)
  | .readAdoptionMarker _ _ => (some none, state)
  | .requiredGenerationPresence _ => (some .complete, state)
  | .predecessorStateContractVersion _ => (some none, state)
  | .parseActiveLedger _ => (some false, state)
  | .checkpointArrays => (some 2, state)
  | .canonicalLedgerHead => (some (genesisCache .v2).head, state)
  | .compareAndResolve => (.advanced, state)
  | .operation => (some true, state)
  | .encodeDeltaEvent _ => (some false, state)
  | .assertCurrent => (true, state)
  | .sync => (true, state)
  | .syncDirectory => (true, state)
  | .read _ => (true, state)
  | .acquireLock => (true, state)
  | .v2AdoptionMaterial => (true, state)
  | .validateV3AuthorityProjection _ => (true, state)

theorem answer_effect {rejected : Check} (may : mayReject rejected) (state : Observed) (op : Op) :
    effect mayReject state op (answer rejected state op).1 (answer rejected state op).2 := by
  cases op with
  | assertHeld check =>
      by_cases same : check = rejected
      · subst same
        exact .inr ⟨by simp [answer], may, by simp [answer]⟩
      · exact .inl ⟨by simp [answer, same], by simp [answer, same]⟩
  | _ => rfl

/-- The files of a state directory are unchanged after a lost lock in every run, exactly where neither the check
behind the write of an append nor the check before the marker of an adoption is rejected. -/
theorem unchangedAfterLoss_iff (mayReject : Check → Prop) :
    (∀ exactMode path result last,
      Execution (effect mayReject) (run exactMode).run untouched path result last →
      (untouched :: path).Pairwise Settled) ↔
    ¬ mayReject .afterAppend ∧ ¬ mayReject .beforeMarker := by
  constructor
  · intro unchanged
    constructor
    · intro may
      have ran := Execution.answered (answer_effect may) (run false).run untouched
      have settled := unchanged false _ _ _ ran
      revert settled
      decide +kernel
    · intro may
      have ran := Execution.answered (answer_effect may) (run true).run untouched
      have settled := unchanged true _ _ _ ran
      revert settled
      decide +kernel
  · rintro ⟨appends, adopts⟩ exactMode path result last execution
    obtain ⟨chain, -⟩ := (within_run appends adopts exactMode untouched rfl).execution execution
    exact List.isChain_iff_pairwise.mp chain

/-- A first append whose check behind the written frame is rejected. -/
def lostAppend : List Observed × Except Unit LedgerHead × Observed :=
  (run false).run.answered (answer .afterAppend) untouched

/-- The ledger is removed after the lock was lost. -/
theorem unchangedAfterLoss_lostAppend :
    Execution (effect fun _ => True) (run false).run untouched lostAppend.1 (some lostAppend.2.1) lostAppend.2.2 ∧
      ¬ (untouched :: lostAppend.1).Pairwise Settled := by
  constructor
  · exact Execution.answered (answer_effect trivial) (run false).run untouched
  · decide +kernel

end PortableCodex.ProviderState.LockOrder
