import PortableCodex.RolloutRepair.AnalysisLaws
import PortableCodex.RolloutRepair.Repair

/-!
What a repair says about the files it leaves.

`Triple` says what a part of the repair makes of the tree, and what holds where it throws. The parts of one repair are
put together in `repairWithHooks_spec`. A second repair of a repaired tree goes as the first, but for the one limit
that only a scan checks: the total size of the files (`honest_iff`).
-/

namespace PortableCodex.RolloutRepair

open Js Contracts Traces

/-! ### Steps -/

/-- What a step does; with `faults` it may throw. -/
def effect (faults : Prop) : Effect Op Answer Disk
  | before, .scanTree, answer, after => after = before ∧ (answer = .ok before.tree ∨ faults ∧ ∃ e, answer = .error e)
  | before, .verify, answer, after => after = before ∧ (answer = .ok () ∨ faults ∧ ∃ e, answer = .error e)
  | before, .openTemporary, answer, after =>
      (answer = .ok () ∧ after = { before with temporary := some [] }) ∨
        faults ∧ (∃ e, answer = .error e) ∧ ∃ temporary, after = { before with temporary }
  | before, .writeFile bytes, answer, after =>
      (answer = .ok () ∧ after = { before with temporary := some bytes }) ∨
        faults ∧ (∃ e, answer = .error e) ∧ ∃ temporary, after = { before with temporary }
  | before, .readTemporary, answer, after =>
      after = before ∧ (answer = .ok (before.temporary.getD []) ∨ faults ∧ ∃ e, answer = .error e)
  | before, .unlinkTemporary, _, after => ∃ temporary, after = { before with temporary }
  | before, .rename path, answer, after =>
      let renamed : Disk :=
        { tree := before.tree.replace path (before.temporary.getD []), temporary := none, renamed := true }
      (answer = .ok () ∧ after = renamed) ∨
        faults ∧ (∃ e, answer = .error e) ∧ (after = { before with renamed := true } ∨ after = renamed)
  | before, .readPinnedFile path, answer, after =>
      after = before ∧ (answer = .ok (before.tree.content path) ∨ faults ∧ ∃ e, answer = .error e)

variable {faults accepted : Prop} {A B : Type}

/-- The result is a value with `ok` or an error with `bad`. -/
def Post (ok : A → Disk → Prop) (bad : Thrown → Disk → Prop) (result : Except Thrown A) (disk : Disk) : Prop :=
  (∀ value, result = .ok value → ok value disk) ∧ ∀ thrown, result = .error thrown → bad thrown disk

/-- From a disk with `pre`, the program returns with `ok` or throws with `bad`. A rename is only attempted where the
set was accepted. -/
def Triple (faults accepted : Prop) (pre : Disk → Prop) (program : Awaited A) (ok : A → Disk → Prop)
    (bad : Thrown → Disk → Prop) : Prop :=
  ∀ disk, pre disk → Safe (effect faults) Eq (fun _ after => after.renamed = true → accepted) (Post ok bad)
    program.run disk

section Rules

variable {pre : Disk → Prop} {ok : A → Disk → Prop} {bad : Thrown → Disk → Prop} {program : Awaited A}

theorem post_ok {value : A} {disk : Disk} (holds : ok value disk) : Post ok bad (.ok value) disk := by
  constructor
  · rintro _ ⟨⟩
    exact holds
  · rintro _ ⟨⟩

theorem post_error {thrown : Thrown} {disk : Disk} (holds : bad thrown disk) : Post ok bad (.error thrown) disk := by
  constructor
  · rintro _ ⟨⟩
  · rintro _ ⟨⟩
    exact holds

theorem Triple.pure {value : A} (holds : ∀ disk, pre disk → ok value disk) :
    Triple faults accepted pre (Pure.pure value) ok bad :=
  fun disk start => post_ok (holds disk start)

theorem Triple.throw {thrown : Thrown} (holds : ∀ disk, pre disk → bad thrown disk) :
    Triple faults accepted pre (throw thrown : Awaited A) ok bad :=
  fun disk start => post_error (holds disk start)

theorem Triple.bind {next : A → Awaited B} {last : B → Disk → Prop}
    (first : Triple faults accepted pre program ok bad)
    (rest : ∀ value, Triple faults accepted (ok value) (next value) last bad) :
    Triple faults accepted pre (program >>= next) last bad := by
  intro disk start
  refine Safe.bindExcept (first disk start) ?_ ?_
  · rintro value after ⟨returns, -⟩
    exact rest value after (returns value rfl)
  · rintro thrown after ⟨-, throws⟩
    exact post_error (throws thrown rfl)

theorem Triple.tryCatch {handler : Thrown → Awaited A} {middle : Thrown → Disk → Prop}
    (first : Triple faults accepted pre program ok middle)
    (handles : ∀ thrown, Triple faults accepted (middle thrown) (handler thrown) ok bad) :
    Triple faults accepted pre (tryCatch program handler) ok bad := by
  intro disk start
  refine Safe.tryCatch (first disk start) ?_ ?_
  · rintro value after ⟨returns, -⟩
    exact post_ok (returns value rfl)
  · rintro thrown after ⟨-, throws⟩
    exact handles thrown after (throws thrown rfl)

theorem Triple.mono {pre' : Disk → Prop} {ok' : A → Disk → Prop} {bad' : Thrown → Disk → Prop}
    (triple : Triple faults accepted pre program ok bad) (stronger : ∀ disk, pre' disk → pre disk)
    (returns : ∀ value disk, ok value disk → ok' value disk)
    (throws : ∀ thrown disk, bad thrown disk → bad' thrown disk) :
    Triple faults accepted pre' program ok' bad' := by
  intro disk start
  refine Safe.mono (triple disk (stronger disk start)) (fun _ _ => id) ?_
  rintro result after ⟨returned, threw⟩
  exact ⟨fun value same => returns value after (returned value same),
    fun thrown same => throws thrown after (threw thrown same)⟩

/-- What holds before a program may be used of it. -/
theorem Triple.assume {p : Prop} (known : ∀ disk, pre disk → p)
    (triple : p → Triple faults accepted pre program ok bad) :
    Triple faults accepted pre program ok bad :=
  fun disk start => triple (known disk start) disk start

end Rules

section Steps

variable {P : Disk → Prop} {t : Tree}

theorem triple_verify (kept : ∀ disk, P disk → disk.renamed = true → accepted) :
    Triple faults accepted P verify (fun _ => P) (fun _ disk => faults ∧ P disk) := by
  rintro disk start before rfl answer after ⟨rfl, rfl | ⟨may, thrown, rfl⟩⟩
  · exact ⟨kept after start, post_ok start⟩
  · exact ⟨kept after start, post_error ⟨may, start⟩⟩

theorem triple_scanTree (kept : ∀ disk, P disk → disk.renamed = true → accepted) :
    Triple faults accepted P scanTree (fun tree disk => P disk ∧ tree = disk.tree)
      (fun _ disk => faults ∧ P disk) := by
  rintro disk start before rfl answer after ⟨rfl, rfl | ⟨may, thrown, rfl⟩⟩
  · exact ⟨kept after start, post_ok ⟨start, rfl⟩⟩
  · exact ⟨kept after start, post_error ⟨may, start⟩⟩

theorem triple_openTemporary (allowed : accepted) :
    Triple faults accepted (fun disk => disk.tree = t) openTemporary (fun _ disk => disk.tree = t)
      (fun _ disk => faults ∧ disk.tree = t) := by
  rintro disk start before rfl answer after (⟨rfl, rfl⟩ | ⟨may, ⟨thrown, rfl⟩, temporary, rfl⟩)
  · exact ⟨fun _ => allowed, post_ok start⟩
  · exact ⟨fun _ => allowed, post_error ⟨may, start⟩⟩

theorem triple_writeFile (allowed : accepted) (bytes : Bytes) :
    Triple faults accepted (fun disk => disk.tree = t) (writeFile bytes)
      (fun _ disk => disk.tree = t ∧ disk.temporary = some bytes) (fun _ disk => faults ∧ disk.tree = t) := by
  rintro disk start before rfl answer after (⟨rfl, rfl⟩ | ⟨may, ⟨thrown, rfl⟩, temporary, rfl⟩)
  · exact ⟨fun _ => allowed, post_ok ⟨start, rfl⟩⟩
  · exact ⟨fun _ => allowed, post_error ⟨may, start⟩⟩

theorem triple_readTemporary (allowed : accepted) (bytes : Bytes) :
    Triple faults accepted (fun disk => disk.tree = t ∧ disk.temporary = some bytes) readTemporary
      (fun written disk => (disk.tree = t ∧ disk.temporary = some bytes) ∧ written = bytes)
      (fun _ disk => faults ∧ disk.tree = t) := by
  rintro disk ⟨tree, written⟩ before rfl answer after ⟨rfl, rfl | ⟨may, thrown, rfl⟩⟩
  · exact ⟨fun _ => allowed, post_ok ⟨⟨tree, written⟩, by rw [written]; rfl⟩⟩
  · exact ⟨fun _ => allowed, post_error ⟨may, tree⟩⟩

/-- A rename that throws may have taken place. -/
theorem triple_rename (allowed : accepted) (path : JsString) (bytes : Bytes) :
    Triple faults accepted (fun disk => disk.tree = t ∧ disk.temporary = some bytes) (rename path)
      (fun _ disk => disk.tree = t.replace path bytes) (fun _ _ => faults) := by
  rintro disk ⟨rfl, written⟩ before rfl answer after (⟨rfl, rfl⟩ | ⟨may, ⟨thrown, rfl⟩, -⟩)
  · exact ⟨fun _ => allowed, post_ok (by rw [written]; rfl)⟩
  · exact ⟨fun _ => allowed, post_error may⟩

theorem triple_readPinnedFile (allowed : accepted) (path : JsString) :
    Triple faults accepted (fun disk => disk.tree = t) (readPinnedFile path)
      (fun bytes disk => disk.tree = t ∧ bytes = t.content path) (fun _ disk => faults ∧ disk.tree = t) := by
  rintro disk rfl before rfl answer after ⟨rfl, rfl | ⟨may, thrown, rfl⟩⟩
  · exact ⟨fun _ => allowed, post_ok ⟨rfl, rfl⟩⟩
  · exact ⟨fun _ => allowed, post_error ⟨may, rfl⟩⟩

/-- The removal of the temporary file leaves the tree, whatever it answers. -/
theorem triple_unlinkTemporary (allowed : accepted) :
    Triple faults accepted (fun disk => disk.tree = t) (tryCatch unlinkTemporary fun _ => pure ())
      (fun _ disk => disk.tree = t) (fun _ _ => False) := by
  have unlinks : Triple faults accepted (fun disk => disk.tree = t) unlinkTemporary (fun _ disk => disk.tree = t)
      (fun _ disk => disk.tree = t) := by
    rintro disk start before rfl answer after ⟨temporary, rfl⟩
    exact ⟨fun _ => allowed, fun _ _ => start, fun _ _ => start⟩
  exact unlinks.tryCatch fun _ => Triple.pure fun _ kept => kept

end Steps

/-! ### One file -/

section File

variable {t : Tree}

theorem triple_check {P : Disk → Prop} {bad : Thrown → Disk → Prop} {holds : Prop} [Decidable holds] (code : Code)
    (true : ∀ disk, P disk → holds) : Triple faults accepted P (check holds code) (fun _ => P) bad := by
  rw [check]
  split
  · exact Triple.pure fun _ start => start
  · rename_i wrong
    intro disk start
    exact absurd (true disk start) wrong

theorem triple_prepareTemporary (allowed : accepted) (bytes : Bytes) :
    Triple faults accepted (fun disk => disk.tree = t) (prepareTemporary bytes)
      (fun _ disk => disk.tree = t ∧ disk.temporary = some bytes) (fun _ disk => faults ∧ disk.tree = t) := by
  have verifies : Triple faults accepted (fun disk => disk.tree = t ∧ disk.temporary = some bytes) verify
      (fun _ disk => disk.tree = t ∧ disk.temporary = some bytes) (fun _ disk => faults ∧ disk.tree = t) :=
    (triple_verify fun _ _ _ => allowed).mono (fun _ => id) (fun _ _ => id) fun _ _ thrown => ⟨thrown.1, thrown.2.1⟩
  refine (triple_openTemporary allowed).bind fun _ => (triple_verify fun _ _ _ => allowed).bind fun _ => ?_
  refine (triple_writeFile allowed bytes).bind fun _ => verifies.bind fun _ => ?_
  refine (triple_readTemporary allowed bytes).bind fun written => ?_
  refine Triple.bind (triple_check .repairFailed fun disk start => ?_) fun _ => ?_
  · rw [start.2]
    exact ⟨rfl, rfl⟩
  · exact verifies.mono (fun _ start => start.1) (fun _ _ => id) fun _ _ => id

theorem triple_publish (allowed : accepted) (path : JsString) (bytes : Bytes) :
    Triple faults accepted (fun disk => disk.tree = t ∧ disk.temporary = some bytes) (publish path bytes)
      (fun _ disk => disk.tree = t.replace path bytes) (fun _ _ => faults) := by
  have verifies : Triple faults accepted (fun disk => disk.tree = t.replace path bytes) verify
      (fun _ disk => disk.tree = t.replace path bytes) (fun _ _ => faults) :=
    (triple_verify fun _ _ _ => allowed).mono (fun _ => id) (fun _ _ => id) fun _ _ thrown => thrown.1
  have reads : Triple faults accepted (fun disk => disk.tree = t.replace path bytes) (readPinnedFile path)
      (fun read disk => disk.tree = t.replace path bytes ∧ read = (t.replace path bytes).content path)
      (fun _ _ => faults) :=
    (triple_readPinnedFile allowed path).mono (fun _ => id) (fun _ _ => id) fun _ _ thrown => thrown.1
  refine (triple_rename allowed path bytes).bind fun _ => verifies.bind fun _ => reads.bind fun read => ?_
  refine Triple.mono (triple_check .repairOutcomeUncertain fun disk start => ?_) (fun _ => id)
    (fun _ _ kept => kept.1) fun _ _ => id
  have same : (t.replace path bytes).content path = bytes := Function.update_self _ _ _
  rw [start.2, same]
  exact ⟨rfl, rfl⟩

/-- A file is replaced whole. Where this throws anything but an uncertain outcome, the tree is as before. -/
theorem triple_replaceFile (allowed : accepted) (path : JsString) (bytes : Bytes) :
    Triple faults accepted (fun disk => disk.tree = t) (replaceFile path bytes)
      (fun _ disk => disk.tree = t.replace path bytes)
      (fun thrown disk => faults ∧ (thrown ≠ .internal .repairOutcomeUncertain → disk.tree = t)) := by
  have prepares : Triple faults accepted (fun disk => disk.tree = t)
      (tryCatch (prepareTemporary bytes) discardTemporary)
      (fun _ disk => disk.tree = t ∧ disk.temporary = some bytes)
      (fun thrown disk => faults ∧ (thrown ≠ .internal .repairOutcomeUncertain → disk.tree = t)) := by
    refine (triple_prepareTemporary allowed bytes).tryCatch fun thrown => ?_
    refine Triple.assume (fun _ start => start.1) fun may => ?_
    have unlinks : Triple faults accepted (fun disk => faults ∧ disk.tree = t)
        (tryCatch unlinkTemporary fun _ => pure ()) (fun _ disk => disk.tree = t)
        (fun thrown disk => faults ∧ (thrown ≠ .internal .repairOutcomeUncertain → disk.tree = t)) :=
      (triple_unlinkTemporary allowed).mono (fun _ start => start.2) (fun _ _ => id) fun _ _ never => never.elim
    refine unlinks.bind fun _ => ?_
    split
    · exact Triple.throw fun _ kept => ⟨may, fun _ => kept⟩
    · exact Triple.throw fun _ kept => ⟨may, fun _ => kept⟩
  refine prepares.bind fun _ => (triple_publish allowed path bytes).tryCatch fun _ => ?_
  exact Triple.throw fun _ may => ⟨may, fun certain => absurd rfl certain⟩

end File

/-! ### All files -/

/-- The tree after the repair of a file. -/
def repaired (tree : Tree) (entry : Entry) : Tree :=
  if entry.analysis.action = .unchanged then tree
  else tree.replace entry.file.relativePath entry.analysis.after

section Files

variable {t : Tree}

theorem triple_repairFile (allowed : accepted) (entry : Entry) :
    Triple faults accepted (fun disk => disk.tree = t) (repairFile entry) (fun _ disk => disk.tree = repaired t entry)
      (fun thrown disk => faults ∧ (thrown ≠ .internal .repairOutcomeUncertain → disk.tree = t)) := by
  have verifies : Triple faults accepted (fun disk => disk.tree = t) verify (fun _ disk => disk.tree = t)
      (fun thrown disk => faults ∧ (thrown ≠ .internal .repairOutcomeUncertain → disk.tree = t)) :=
    (triple_verify fun _ _ _ => allowed).mono (fun _ => id) (fun _ _ => id)
      fun _ _ thrown => ⟨thrown.1, fun _ => thrown.2⟩
  rw [repairFile, repaired]
  split
  · exact verifies
  · exact verifies.bind fun _ => triple_replaceFile allowed _ _

theorem settle_internal (published : Bool) (thrown : Thrown) : ∃ code, settle published thrown = .internal code := by
  cases thrown with
  | internal code =>
      rw [settle]
      split
      · exact ⟨_, rfl⟩
      · exact ⟨_, rfl⟩
  | external => cases published <;> exact ⟨_, rfl⟩

theorem settle_published (thrown : Thrown) : settle true thrown = .internal .repairOutcomeUncertain := by
  cases thrown with
  | internal code =>
      by_cases uncertain : code = .repairOutcomeUncertain
      · rw [settle, uncertain, if_neg (fun both => both.2 rfl)]
      · rw [settle, if_pos ⟨rfl, uncertain⟩]
  | external => rfl

theorem settle_unpublished {thrown : Thrown}
    (certain : settle false thrown ≠ .internal .repairOutcomeUncertain) :
    thrown ≠ .internal .repairOutcomeUncertain := by
  rintro rfl
  exact certain rfl

/-- What holds of an error of `repairWithHooks`: unless the outcome is uncertain, the tree is the first one. -/
def Rejected (faults : Prop) (first : Tree) (thrown : Thrown) (disk : Disk) : Prop :=
  faults ∧ (∃ code, thrown = .internal code) ∧ (thrown ≠ .internal .repairOutcomeUncertain → disk.tree = first)

/-- The catch block, for a part that starts from the first tree as long as nothing is published. -/
theorem Triple.during {first : Tree} {published : Bool} {part : Awaited A} {pre : Disk → Prop}
    {ok : A → Disk → Prop} (unpublished : published = false → t = first)
    (triple : Triple faults accepted pre part ok
      (fun thrown disk => faults ∧ (thrown ≠ .internal .repairOutcomeUncertain → disk.tree = t))) :
    Triple faults accepted pre (during published part) ok (Rejected faults first) := by
  refine triple.tryCatch fun thrown => Triple.throw ?_
  rintro disk ⟨may, kept⟩
  refine ⟨may, settle_internal published thrown, fun certain => ?_⟩
  cases published with
  | true => exact absurd (settle_published thrown) certain
  | false => exact (kept (settle_unpublished certain)).trans (unpublished rfl)

theorem triple_repairFiles (allowed : accepted) {first : Tree} (entries : List Entry) (published : Bool)
    (unpublished : published = false → t = first) :
    Triple faults accepted (fun disk => disk.tree = t) (repairFiles published entries)
      (fun published disk => disk.tree = entries.foldl repaired t ∧
        (published = false → entries.foldl repaired t = first)) (Rejected faults first) := by
  induction entries generalizing t published with
  | nil => exact Triple.pure fun _ start => ⟨start, unpublished⟩
  | cons entry entries ih =>
      refine ((triple_repairFile allowed entry).during unpublished).bind fun _ => ?_
      apply ih
      intro still
      rw [Bool.or_eq_false_iff, decide_eq_false_iff_not, not_not] at still
      rw [repaired, if_pos still.2]
      exact unpublished still.1

end Files

def reportOf (collation : Collation) (request : Request) (entries : List Entry) : Report where
  compatibility := request.runtimeIdentity
  files := sortProofs collation (entries.map Entry.proof)
  rootSessionId := request.rootSessionId

theorem triple_fromExcept {P : Disk → Prop} (value : Except Code A) :
    Triple faults accepted P (fromExcept value) (fun found disk => P disk ∧ value = .ok found)
      (fun _ disk => P disk ∧ ∃ code, value = .error code) := by
  cases value with
  | ok found => exact Triple.pure fun _ start => ⟨start, rfl⟩
  | error code => exact Triple.throw fun _ start => ⟨start, code, rfl⟩

theorem triple_loadSet {t : Tree} (root : Uuid) :
    Triple faults accepted (fun disk => disk.tree = t ∧ disk.renamed = false) (loadSet root)
      (fun entries disk => disk.tree = t ∧ analyzeTree root t = .ok entries)
      (fun _ disk => disk.tree = t ∧ (faults ∨ ∃ code, analyzeTree root t = .error code)) := by
  have kept (disk : Disk) (start : disk.tree = t ∧ disk.renamed = false) (renamed : disk.renamed = true) :
      accepted := by
    rw [start.2] at renamed
    cases renamed
  have scans : Triple faults accepted (fun disk => disk.tree = t ∧ disk.renamed = false) scanTree
      (fun tree disk => (disk.tree = t ∧ disk.renamed = false) ∧ tree = disk.tree)
      (fun _ disk => disk.tree = t ∧ (faults ∨ ∃ code, analyzeTree root t = .error code)) :=
    (triple_scanTree kept).mono (fun _ => id) (fun _ _ => id) fun _ _ thrown => ⟨thrown.2.1, .inl thrown.1⟩
  have verifies : Triple faults accepted (fun disk => disk.tree = t ∧ disk.renamed = false) verify
      (fun _ disk => disk.tree = t ∧ disk.renamed = false)
      (fun _ disk => disk.tree = t ∧ (faults ∨ ∃ code, analyzeTree root t = .error code)) :=
    (triple_verify kept).mono (fun _ => id) (fun _ _ => id) fun _ _ thrown => ⟨thrown.2.1, .inl thrown.1⟩
  refine scans.bind fun tree => Triple.assume (fun disk start => start.2.trans start.1.1) fun same => ?_
  subst tree
  have analyzes : Triple faults accepted (fun disk => (disk.tree = t ∧ disk.renamed = false) ∧ t = disk.tree)
      (fromExcept (analyzeTree root t))
      (fun entries disk => (disk.tree = t ∧ disk.renamed = false) ∧ analyzeTree root t = .ok entries)
      (fun _ disk => disk.tree = t ∧ (faults ∨ ∃ code, analyzeTree root t = .error code)) :=
    (triple_fromExcept _).mono (fun _ start => start.1) (fun _ _ => id)
      fun _ _ thrown => ⟨thrown.1.1, .inr thrown.2⟩
  refine analyzes.bind fun entries => Triple.assume (fun _ start => start.2) fun analyzed => ?_
  refine (verifies.mono (fun _ start => start.1) (fun _ _ => id) fun _ _ => id).bind fun _ => ?_
  exact Triple.pure fun _ start => ⟨start.1, analyzed⟩

/-- A repair from a tree without changes: what it returns, and what holds where it throws. -/
theorem repairWithHooks_spec (collation : Collation) (options : Except Thrown Request) (t : Tree) :
    Triple faults (∃ request entries, options = .ok request ∧ analyzeTree request.rootSessionId t = .ok entries)
      (fun disk => disk.tree = t ∧ disk.renamed = false) (repairWithHooks collation options)
      (fun report disk => ∃ request entries, options = .ok request ∧
        analyzeTree request.rootSessionId t = .ok entries ∧ disk.tree = entries.foldl repaired t ∧
        report = reportOf collation request entries)
      (fun thrown disk => (∃ code, thrown = .internal code) ∧
        (thrown ≠ .internal .repairOutcomeUncertain → disk.tree = t) ∧
        (faults ∨ ∀ request entries, options = .ok request → analyzeTree request.rootSessionId t ≠ .ok entries)) := by
  cases options with
  | error thrown =>
      have rejects : ∃ code, normalizeRequest (.error thrown) = throw (.internal code) := by
        cases thrown with
        | internal code => exact ⟨code, rfl⟩
        | external => exact ⟨_, rfl⟩
      obtain ⟨code, rejects⟩ := rejects
      intro disk start
      rw [repairWithHooks, rejects]
      refine post_error ⟨⟨code, rfl⟩, fun _ => start.1, .inr ?_⟩
      rintro request entries ⟨⟩
  | ok request =>
      have normalizes {bad : Thrown → Disk → Prop} : Triple faults
          (∃ request' entries, Except.ok (ε := Thrown) request = .ok request' ∧
            analyzeTree request'.rootSessionId t = .ok entries)
          (fun disk => disk.tree = t ∧ disk.renamed = false) (normalizeRequest (.ok request))
          (fun value disk => (disk.tree = t ∧ disk.renamed = false) ∧ value = request) bad :=
        Triple.pure fun _ start => ⟨start, rfl⟩
      refine normalizes.bind fun value => Triple.assume (fun _ start => start.2) fun same => ?_
      subst value
      refine Triple.bind (Triple.mono ((triple_loadSet request.rootSessionId).tryCatch fun thrown =>
        Triple.throw fun disk failed => ?_) (fun _ start => start.1) (fun _ _ => id) fun _ _ => id) fun entries => ?_
      · refine ⟨settle_internal false thrown, fun _ => failed.1, failed.2.imp id ?_⟩
        rintro ⟨code, rejected⟩ request' entries ⟨⟩ analyzed
        rw [rejected] at analyzed
        cases analyzed
      · refine Triple.assume (fun _ start => start.2) fun analyzed => ?_
        have allowed : ∃ request' entries, Except.ok (ε := Thrown) request = .ok request' ∧
            analyzeTree request'.rootSessionId t = .ok entries := ⟨request, entries, rfl, analyzed⟩
        refine Triple.bind (Triple.mono (triple_repairFiles allowed entries false fun _ => rfl)
          (fun _ start => start.1) (fun _ _ => id) fun thrown disk failed =>
            ⟨failed.2.1, failed.2.2, .inl failed.1⟩) fun published => ?_
        refine Triple.assume (fun _ start => start.2) fun unpublished => ?_
        have verifies : Triple faults _ (fun disk => disk.tree = entries.foldl repaired t) verify
            (fun _ disk => disk.tree = entries.foldl repaired t) (fun thrown disk => faults ∧
              (thrown ≠ .internal .repairOutcomeUncertain → disk.tree = entries.foldl repaired t)) :=
          (triple_verify fun _ _ _ => allowed).mono (fun _ => id) (fun _ _ => id)
            fun _ _ thrown => ⟨thrown.1, fun _ => thrown.2⟩
        refine Triple.bind (Triple.mono (verifies.during unpublished) (fun _ start => start.1) (fun _ _ => id)
          fun thrown disk failed => ⟨failed.2.1, failed.2.2, .inl failed.1⟩) fun _ => ?_
        exact Triple.pure fun disk start => ⟨request, entries, rfl, analyzed, start, rfl⟩

/-! ### The set again -/

theorem readFiles_ok {content : JsString → Bytes} {count total : Nat} {paths : List JsString}
    {files : List RolloutFile} (read : readFiles content count total paths = .ok files) :
    files = paths.map (fun path => { relativePath := path, bytes := content path }) ∧
      (paths ≠ [] → count + paths.length ≤ maxRolloutFiles) ∧
      (paths ≠ [] → total + (paths.map fun path => (content path).length).sum ≤ maxTotalBytes) := by
  induction paths generalizing count total files with
  | nil =>
      cases read
      exact ⟨rfl, fun absent => absurd rfl absent, fun absent => absurd rfl absent⟩
  | cons path paths ih =>
      rw [readFiles] at read
      split at read
      · cases read
      rename_i room
      split at read
      · cases read
      split at read
      · cases read
      rename_i fits
      cases rest : readFiles content (count + 1) (total + (content path).length) paths with
      | error code =>
          rw [rest] at read
          cases read
      | ok others =>
          rw [rest] at read
          cases read
          obtain ⟨rfl, counted, summed⟩ := ih rest
          refine ⟨rfl, fun _ => ?_, fun _ => ?_⟩
          · cases paths with
            | nil => simp only [List.length_cons, List.length_nil]; omega
            | cons other paths =>
                have more := counted (List.cons_ne_nil _ _)
                simp only [List.length_cons] at more ⊢
                omega
          · cases paths with
            | nil => simp only [List.map_cons, List.map_nil, List.sum_cons, List.sum_nil]; omega
            | cons other paths =>
                have more := summed (List.cons_ne_nil _ _)
                simp only [List.map_cons, List.sum_cons] at more ⊢
                omega

theorem readFiles_of {content : JsString → Bytes} {count total : Nat} {paths : List JsString}
    (sizes : ∀ path ∈ paths, 0 < (content path).length ∧ (content path).length ≤ maxFileBytes)
    (counted : count + paths.length ≤ maxRolloutFiles)
    (summed : total + (paths.map fun path => (content path).length).sum ≤ maxTotalBytes) :
    readFiles content count total paths =
      .ok (paths.map fun path => { relativePath := path, bytes := content path }) := by
  induction paths generalizing count total with
  | nil => rfl
  | cons path paths ih =>
      simp only [List.length_cons, List.map_cons, List.sum_cons] at counted summed
      rw [readFiles, if_neg (by omega), if_neg (not_not.mpr (sizes path List.mem_cons_self)), if_neg (by omega),
        ih (fun other inside => sizes other (List.mem_cons_of_mem _ inside)) (by omega) (by omega)]
      rfl

theorem analyzeAll_ok {files : List RolloutFile} {entries : List Entry} (analyzed : analyzeAll files = .ok entries) :
    entries.map (·.file) = files ∧ ∀ entry ∈ entries, analyzeBytes entry.file.bytes = some entry.analysis := by
  induction files generalizing entries with
  | nil =>
      cases analyzed
      exact ⟨rfl, fun _ inside => absurd inside List.not_mem_nil⟩
  | cons file files ih =>
      rw [analyzeAll, analyze] at analyzed
      cases found : analyzeBytes file.bytes with
      | none =>
          rw [found] at analyzed
          cases analyzed
      | some analysis =>
          rw [found] at analyzed
          cases rest : analyzeAll files with
          | error code =>
              rw [rest] at analyzed
              cases analyzed
          | ok others =>
              rw [rest] at analyzed
              cases analyzed
              obtain ⟨same, holds⟩ := ih rest
              refine ⟨by rw [List.map_cons, same], ?_⟩
              intro entry inside
              rcases List.mem_cons.mp inside with rfl | later
              · exact found
              · exact holds entry later

theorem analyzeAll_of {entries : List Entry}
    (analyzed : ∀ entry ∈ entries, analyzeBytes entry.file.bytes = some entry.analysis) :
    analyzeAll (entries.map (·.file)) = .ok entries := by
  induction entries with
  | nil => rfl
  | cons entry entries ih =>
      rw [List.map_cons, analyzeAll, analyze, analyzed entry List.mem_cons_self,
        ih fun other inside => analyzed other (List.mem_cons_of_mem _ inside)]
      rfl

theorem analyzeBytes_small {bytes : Bytes} {a : Analysis} (h : analyzeBytes bytes = some a) :
    0 < a.after.length ∧ a.after.length ≤ maxFileBytes ∧ (a.action = .unchanged → a.after = bytes) := by
  have again := (analyzeBytes_after h).2
  have positive : 0 < a.after.length := by
    apply List.length_pos_of_ne_nil
    intro empty
    rw [empty] at again
    cases again
  refine ⟨positive, ?_⟩
  simp only [analyzeBytes, Option.bind_eq_bind, Option.bind_eq_some_iff] at h
  obtain ⟨completeLines, -, h⟩ := h
  split at h
  · obtain ⟨_, _, _, -, small, -, rfl⟩ := conclude_eq_some h
    exact ⟨small, fun _ => rfl⟩
  · split at h
    · obtain ⟨_, _, _, -, small, -, rfl⟩ := conclude_eq_some h
      exact ⟨small, fun same => Action.noConfusion same⟩
    · simp only [Option.bind_eq_some_iff] at h
      obtain ⟨_, -, _, -, h⟩ := h
      obtain ⟨_, _, _, -, small, -, rfl⟩ := conclude_eq_some h
      exact ⟨small, fun same => Action.noConfusion same⟩

/-- What an accepted tree is. -/
structure Accepted (root : Uuid) (tree : Tree) (entries : List Entry) : Prop where
  files : entries.map (·.file) = tree.paths.map fun path => { relativePath := path, bytes := tree.content path }
  analyzed : ∀ entry ∈ entries, analyzeBytes entry.file.bytes = some entry.analysis
  notEmpty : tree.paths ≠ []
  counted : tree.paths.length ≤ maxRolloutFiles
  summed : (tree.paths.map fun path => (tree.content path).length).sum ≤ maxTotalBytes
  metas : checkSet root (entries.map (·.analysis.sessionMeta)) = .ok ()

theorem analyzeTree_ok {root : Uuid} {tree : Tree} {entries : List Entry}
    (analyzed : analyzeTree root tree = .ok entries) : Accepted root tree entries := by
  rw [analyzeTree] at analyzed
  cases read : readFiles tree.content 0 0 tree.paths with
  | error code =>
      rw [read] at analyzed
      cases analyzed
  | ok files =>
      rw [read] at analyzed
      obtain ⟨same, counted, summed⟩ := readFiles_ok read
      cases files with
      | nil => cases analyzed
      | cons file files =>
          have notEmpty : tree.paths ≠ [] := by
            intro empty
            rw [empty] at same
            cases same
          cases all : analyzeAll (file :: files) with
          | error code =>
              simp only [all, List.isEmpty_cons, Bind.bind, Except.bind] at analyzed
              cases analyzed
          | ok others =>
              simp only [all, List.isEmpty_cons, Bind.bind, Except.bind] at analyzed
              cases metas : checkSet root (others.map (·.analysis.sessionMeta)) with
              | error code =>
                  simp only [metas] at analyzed
                  cases analyzed
              | ok _ =>
                  simp only [metas] at analyzed
                  cases analyzed
                  obtain ⟨inOrder, holds⟩ := analyzeAll_ok all
                  have counts := counted notEmpty
                  have sums := summed notEmpty
                  rw [Nat.zero_add] at counts sums
                  exact ⟨inOrder.trans same, holds, notEmpty, counts, sums, metas⟩

theorem analyzeTree_of {root : Uuid} {tree : Tree} {entries : List Entry} (accepted : Accepted root tree entries)
    (sizes : ∀ path ∈ tree.paths, 0 < (tree.content path).length ∧ (tree.content path).length ≤ maxFileBytes) :
    analyzeTree root tree = .ok entries := by
  have read : readFiles tree.content 0 0 tree.paths = .ok _ :=
    readFiles_of sizes ((Nat.zero_add _).trans_le accepted.counted) ((Nat.zero_add _).trans_le accepted.summed)
  rw [← accepted.files] at read
  have notEmpty : (entries.map (·.file)).isEmpty = false := by
    rw [accepted.files, List.isEmpty_map]
    exact List.isEmpty_eq_false_iff.mpr accepted.notEmpty
  rw [analyzeTree, read]
  simp only [Bind.bind, Except.bind, notEmpty, analyzeAll_of accepted.analyzed, accepted.metas]
  rfl

theorem Accepted.paths {root : Uuid} {tree : Tree} {entries : List Entry} (accepted : Accepted root tree entries) :
    entries.map (·.file.relativePath) = tree.paths := by
  have same := congrArg (List.map RolloutFile.relativePath) accepted.files
  rw [List.map_map, List.map_map] at same
  exact same.trans (List.map_id _)

theorem Accepted.content {root : Uuid} {tree : Tree} {entries : List Entry} (accepted : Accepted root tree entries)
    {entry : Entry} (inside : entry ∈ entries) : tree.content entry.file.relativePath = entry.file.bytes := by
  have member : entry.file ∈ entries.map (·.file) := List.mem_map_of_mem inside
  rw [accepted.files] at member
  obtain ⟨path, -, same⟩ := List.mem_map.mp member
  rw [← same]

/-! ### The repaired tree -/

theorem foldl_paths (entries : List Entry) (t : Tree) : (entries.foldl repaired t).paths = t.paths := by
  induction entries generalizing t with
  | nil => rfl
  | cons entry entries ih =>
      rw [List.foldl_cons, ih, repaired]
      split <;> rfl

theorem repaired_other {t : Tree} {entry : Entry} {path : JsString} (other : path ≠ entry.file.relativePath) :
    (repaired t entry).content path = t.content path := by
  rw [repaired]
  split
  · rfl
  · exact Function.update_of_ne other _ _

theorem foldl_other {entries : List Entry} {t : Tree} {path : JsString}
    (other : path ∉ entries.map (·.file.relativePath)) :
    (entries.foldl repaired t).content path = t.content path := by
  induction entries generalizing t with
  | nil => rfl
  | cons entry entries ih =>
      rw [List.map_cons, List.mem_cons, not_or] at other
      rw [List.foldl_cons, ih other.2, repaired_other other.1]

/-- Every file has what its analysis leaves. -/
theorem foldl_content {entries : List Entry} {t : Tree} (distinct : (entries.map (·.file.relativePath)).Nodup)
    (before : ∀ entry ∈ entries, t.content entry.file.relativePath = entry.file.bytes)
    (analyzed : ∀ entry ∈ entries, analyzeBytes entry.file.bytes = some entry.analysis) :
    ∀ entry ∈ entries, (entries.foldl repaired t).content entry.file.relativePath = entry.analysis.after := by
  induction entries generalizing t with
  | nil => exact fun _ inside => absurd inside List.not_mem_nil
  | cons head entries ih =>
      rw [List.map_cons, List.nodup_cons] at distinct
      intro entry inside
      rw [List.foldl_cons]
      rcases List.mem_cons.mp inside with rfl | later
      · rw [foldl_other distinct.1, repaired]
        split
        · rename_i unchanged
          rw [before entry List.mem_cons_self]
          exact ((analyzeBytes_small (analyzed entry List.mem_cons_self)).2.2 unchanged).symm
        · exact Function.update_self _ _ _
      · refine ih distinct.2 ?_ (fun other inside => analyzed other (List.mem_cons_of_mem _ inside)) entry later
        intro other inside
        have apart : other.file.relativePath ≠ head.file.relativePath := by
          intro same
          exact distinct.1 (same ▸ List.mem_map_of_mem inside)
        rw [repaired_other apart]
        exact before other (List.mem_cons_of_mem _ inside)

/-- The entry of a repaired file. -/
def Entry.again (entry : Entry) : Entry where
  file := { relativePath := entry.file.relativePath, bytes := entry.analysis.after }
  analysis := {
    action := .unchanged
    after := entry.analysis.after
    sessionMeta := entry.analysis.sessionMeta
    removedBytes := 0 }

/-- The bytes of all files after a repair. -/
def afterTotal (entries : List Entry) : Nat := (entries.map (·.analysis.after.length)).sum

section Again

variable {root : Uuid} {t : Tree} {entries : List Entry}

theorem Accepted.after (accepted : Accepted root t entries) {entry : Entry} (inside : entry ∈ entries) :
    (entries.foldl repaired t).content entry.file.relativePath = entry.analysis.after := by
  have distinct : (entries.map (·.file.relativePath)).Nodup := accepted.paths ▸ t.distinct
  exact foldl_content distinct (fun _ => accepted.content) accepted.analyzed entry inside

theorem Accepted.total (accepted : Accepted root t entries) :
    ((entries.foldl repaired t).paths.map fun path => ((entries.foldl repaired t).content path).length).sum =
      afterTotal entries := by
  rw [foldl_paths, ← accepted.paths, List.map_map, afterTotal]
  congr 1
  apply List.map_congr_left
  intro entry inside
  exact congrArg List.length (accepted.after inside)

/-- A repaired tree is accepted again, if its files are not too large together. -/
theorem Accepted.again (accepted : Accepted root t entries) (fits : afterTotal entries ≤ maxTotalBytes) :
    analyzeTree root (entries.foldl repaired t) = .ok (entries.map Entry.again) := by
  have sizes : ∀ path ∈ (entries.foldl repaired t).paths,
      0 < ((entries.foldl repaired t).content path).length ∧
        ((entries.foldl repaired t).content path).length ≤ maxFileBytes := by
    intro path inside
    rw [foldl_paths, ← accepted.paths] at inside
    obtain ⟨entry, member, rfl⟩ := List.mem_map.mp inside
    rw [accepted.after member]
    have small := analyzeBytes_small (accepted.analyzed entry member)
    exact ⟨small.1, small.2.1⟩
  apply analyzeTree_of _ sizes
  constructor
  case files =>
    rw [foldl_paths, ← accepted.paths, List.map_map, List.map_map]
    apply List.map_congr_left
    intro entry inside
    simp only [Function.comp_apply, Entry.again, accepted.after inside]
  case analyzed =>
    intro entry inside
    obtain ⟨first, member, rfl⟩ := List.mem_map.mp inside
    exact (analyzeBytes_after (accepted.analyzed first member)).2
  case notEmpty =>
    rw [foldl_paths]
    exact accepted.notEmpty
  case counted =>
    rw [foldl_paths]
    exact accepted.counted
  case summed =>
    rw [accepted.total]
    exact fits
  case metas =>
    rw [List.map_map]
    exact accepted.metas

theorem Accepted.fits (accepted : Accepted root t entries) {root' : Uuid} {others : List Entry}
    (again : analyzeTree root' (entries.foldl repaired t) = .ok others) : afterTotal entries ≤ maxTotalBytes := by
  rw [← accepted.total]
  exact (analyzeTree_ok again).summed

end Again

/-! ### Reports -/

/-- The proof of a file that is repaired already. -/
def Proof.again (proof : Proof) : Proof where
  action := .unchanged
  after := proof.after
  before := proof.after
  relativePath := proof.relativePath
  removedBytes := 0

theorem sortProofs_again (collation : Collation) (entries : List Entry) :
    sortProofs collation ((entries.map Entry.again).map Entry.proof) =
      (sortProofs collation (entries.map Entry.proof)).map Proof.again := by
  have proofs : (entries.map Entry.again).map Entry.proof = (entries.map Entry.proof).map Proof.again := by
    rw [List.map_map, List.map_map]
    rfl
  rw [proofs, sortProofs, sortProofs]
  symm
  apply List.map_mergeSort
  intro first _ second _
  rfl

theorem sortProofs_sorted (collation : Collation) (proofs : List Proof) :
    (sortProofs collation proofs).Pairwise fun left right =>
      collation.le left.relativePath right.relativePath = true := by
  apply List.pairwise_mergeSort
  · intro first second third
    exact collation.trans _ _ _
  · intro left right
    exact collation.total _ _

/-! ### The outcome of a repair -/

/-- A repair from this tree, in which any step may throw. -/
def Repairs (faults : Prop) (collation : Collation) (options : Except Thrown Request) (t : Tree) (path : List Disk)
    (result : Option (Except Thrown Report)) (last : Disk) : Prop :=
  ∃ temporary, Execution (effect faults) (repairWithHooks collation options).run
    { tree := t, temporary, renamed := false } path result last

/-- What a caller may rely on. -/
structure Honest (collation : Collation) (t : Tree) : Prop where
  /-- Where the outcome is not called uncertain, no file has changed. -/
  rejected : ∀ options path thrown last, Repairs True collation options t path (some (.error thrown)) last →
    thrown ≠ .internal .repairOutcomeUncertain → last.tree = t
  /-- Nothing is renamed before the whole set was accepted. -/
  renamed : ∀ options path result last, Repairs True collation options t path result last →
    ∀ disk ∈ path, disk.renamed = true →
      ∃ request entries, options = .ok request ∧ analyzeTree request.rootSessionId t = .ok entries
  /-- After a success every file is what its analysis leaves, and the proofs are those of all files in order. -/
  returned : ∀ options path report last, Repairs True collation options t path (some (.ok report)) last →
    last.tree.paths = t.paths ∧
      (∀ p ∈ t.paths, ∃ analysis, analyzeBytes (t.content p) = some analysis ∧ last.tree.content p = analysis.after) ∧
      (report.files.Pairwise fun left right => collation.le left.relativePath right.relativePath = true) ∧
      (report.files.map (·.relativePath)).Perm t.paths
  /-- A second repair, in which no step throws, reports every file unchanged. -/
  again : ∀ options path report last, Repairs True collation options t path (some (.ok report)) last →
    ∀ path' result last', Repairs False collation options last.tree path' (some result) last' →
      ∃ second, result = .ok second ∧ second.files = report.files.map Proof.again

section Outcome

variable {collation : Collation} {options : Except Thrown Request} {t : Tree} {path : List Disk} {last : Disk}

theorem Repairs.ends {result : Except Thrown Report}
    (repairs : Repairs faults collation options t path (some result) last) :
    (∀ report, result = .ok report → ∃ request entries, options = .ok request ∧
      analyzeTree request.rootSessionId t = .ok entries ∧ last.tree = entries.foldl repaired t ∧
      report = reportOf collation request entries) ∧
    ∀ thrown, result = .error thrown → (thrown ≠ .internal .repairOutcomeUncertain → last.tree = t) ∧
      (faults ∨ ∀ request entries, options = .ok request → analyzeTree request.rootSessionId t ≠ .ok entries) := by
  obtain ⟨temporary, execution⟩ := repairs
  obtain ⟨-, ends⟩ := (repairWithHooks_spec collation options t _ ⟨rfl, rfl⟩).execution execution
  obtain ⟨returns, throws⟩ := ends result rfl
  exact ⟨returns, fun thrown same => (throws thrown same).2⟩

theorem effect_total (disk : Disk) (op : Op) : ∃ answer after, effect False disk op answer after := by
  cases op with
  | scanTree => exact ⟨_, _, rfl, .inl rfl⟩
  | verify => exact ⟨_, _, rfl, .inl rfl⟩
  | openTemporary => exact ⟨_, _, .inl ⟨rfl, rfl⟩⟩
  | writeFile bytes => exact ⟨_, _, .inl ⟨rfl, rfl⟩⟩
  | readTemporary => exact ⟨_, _, rfl, .inl rfl⟩
  | unlinkTemporary => exact ⟨.ok (), disk, disk.temporary, rfl⟩
  | rename path => exact ⟨_, _, .inl ⟨rfl, rfl⟩⟩
  | readPinnedFile path => exact ⟨_, _, rfl, .inl rfl⟩

theorem effect_mono (disk : Disk) (op : Op) (answer : Answer op) (after : Disk)
    (effected : effect False disk op answer after) : effect True disk op answer after := by
  cases op with
  | scanTree => exact ⟨effected.1, effected.2.imp id fun never => never.1.elim⟩
  | verify => exact ⟨effected.1, effected.2.imp id fun never => never.1.elim⟩
  | openTemporary => exact Or.imp id (fun never => never.1.elim) effected
  | writeFile bytes => exact Or.imp id (fun never => never.1.elim) effected
  | readTemporary => exact ⟨effected.1, effected.2.imp id fun never => never.1.elim⟩
  | unlinkTemporary => exact effected
  | rename path => exact Or.imp id (fun never => never.1.elim) effected
  | readPinnedFile path => exact ⟨effected.1, effected.2.imp id fun never => never.1.elim⟩

/-- Without faults an accepted tree is repaired. -/
theorem exists_repair (collation : Collation) {request : Request} {entries : List Entry}
    (accepted : analyzeTree request.rootSessionId t = .ok entries) :
    ∃ path last, Repairs False collation (.ok request) t path (some (.ok (reportOf collation request entries))) last ∧
      last.tree = entries.foldl repaired t := by
  obtain ⟨path, result, last, execution⟩ := Execution.exists effect_total
    (repairWithHooks collation (.ok request)).run { tree := t, temporary := none, renamed := false }
  have repairs : Repairs False collation (.ok request) t path (some result) last := ⟨none, execution⟩
  obtain ⟨returns, throws⟩ := repairs.ends
  cases result with
  | error thrown =>
      rcases (throws thrown rfl).2 with never | never
      · exact never.elim
      · exact absurd accepted (never request entries rfl)
  | ok report =>
      obtain ⟨request', entries', same, accepted', repaired, rfl⟩ := returns report rfl
      cases same
      rw [accepted] at accepted'
      cases accepted'
      exact ⟨path, last, repairs, repaired⟩

theorem Repairs.mono {result : Option (Except Thrown Report)}
    (repairs : Repairs False collation options t path result last) :
    Repairs True collation options t path result last := by
  obtain ⟨temporary, execution⟩ := repairs
  exact ⟨temporary, execution.mono effect_mono⟩

end Outcome

theorem chain_mem {Q : Disk → Prop} {first : Disk} {path : List Disk}
    (chain : List.IsChain (fun _ after => Q after) (first :: path)) {disk : Disk} (inside : disk ∈ path) :
    Q disk := by
  induction path generalizing first with
  | nil => cases inside
  | cons second path ih =>
      rw [List.isChain_cons_cons] at chain
      rcases List.mem_cons.mp inside with rfl | later
      · exact chain.1
      · exact ih chain.2 later

theorem honest_fits {collation : Collation} {t : Tree} (honest : Honest collation t) {root : Uuid}
    {entries : List Entry} (analyzed : analyzeTree root t = .ok entries) : afterTotal entries ≤ maxTotalBytes := by
  let request : Request := { rootSessionId := root, runtimeIdentity := ⟨[], [], []⟩ }
  have accepted : analyzeTree request.rootSessionId t = .ok entries := analyzed
  obtain ⟨path, last, repairs, tree⟩ := exists_repair collation accepted
  obtain ⟨path', result, last', execution⟩ := Execution.exists effect_total
    (repairWithHooks collation (.ok request)).run { tree := last.tree, temporary := none, renamed := false }
  have second : Repairs False collation (.ok request) last.tree path' (some result) last' := ⟨none, execution⟩
  obtain ⟨report, rfl, -⟩ := honest.again _ _ _ _ repairs.mono _ _ _ second
  obtain ⟨request', others, -, again, -⟩ := second.ends.1 report rfl
  rw [tree] at again
  exact (analyzeTree_ok accepted).fits again

theorem honest_of_fits {collation : Collation} {t : Tree}
    (fits : ∀ root entries, analyzeTree root t = .ok entries → afterTotal entries ≤ maxTotalBytes) :
    Honest collation t := by
  constructor
  case rejected =>
    intro options path thrown last repairs certain
    exact (repairs.ends.2 thrown rfl).1 certain
  case renamed =>
    rintro options path result last ⟨temporary, execution⟩ disk inside renamed
    obtain ⟨chain, -⟩ := (repairWithHooks_spec collation options t _ ⟨rfl, rfl⟩).execution execution
    exact chain_mem chain inside renamed
  case returned =>
    intro options path report last repairs
    obtain ⟨request, entries, rfl, analyzed, tree, rfl⟩ := repairs.ends.1 report rfl
    have accepted := analyzeTree_ok analyzed
    refine ⟨by rw [tree, foldl_paths], ?_, sortProofs_sorted _ _, ?_⟩
    · intro p inside
      rw [← accepted.paths] at inside
      obtain ⟨entry, member, rfl⟩ := List.mem_map.mp inside
      refine ⟨entry.analysis, ?_, ?_⟩
      · rw [accepted.content member]
        exact accepted.analyzed entry member
      · rw [tree]
        exact accepted.after member
    · have proofs := (List.mergeSort_perm (entries.map Entry.proof)
        fun left right => collation.le left.relativePath right.relativePath).map (·.relativePath)
      rw [List.map_map] at proofs
      exact accepted.paths ▸ proofs
  case again =>
    intro options path report last repairs path' result last' second
    obtain ⟨request, entries, rfl, analyzed, tree, rfl⟩ := repairs.ends.1 report rfl
    have again := (analyzeTree_ok analyzed).again (fits _ _ analyzed)
    rw [← tree] at again
    cases result with
    | error thrown =>
        rcases (second.ends.2 thrown rfl).2 with never | never
        · exact never.elim
        · exact absurd again (never request _ rfl)
    | ok report =>
        obtain ⟨request', others, same, again', -, rfl⟩ := second.ends.1 report rfl
        cases same
        rw [again] at again'
        cases again'
        exact ⟨_, rfl, sortProofs_again collation entries⟩

/-- A repair keeps its promises exactly where the files of an accepted set are together not too large after it: only
the scan of the next repair finds out that they are. -/
theorem honest_iff (collation : Collation) (t : Tree) :
    Honest collation t ↔ ∀ root entries, analyzeTree root t = .ok entries → afterTotal entries ≤ maxTotalBytes :=
  ⟨fun honest _ _ => honest_fits honest, honest_of_fits⟩

/-! ### A tree that is repaired only once -/

section Large

def samplePaths : List JsString := [js "1.jsonl", js "2.jsonl", js "3.jsonl", js "4.jsonl", js "5.jsonl"]

def threadOf (path : JsString) : JsString := js "0198c0de-0000-7000-8000-00000000000" ++ path.take 1

theorem root_isUuid : IsUuid (threadOf (js "1.jsonl")) := by decide

def sampleRoot : Uuid := ⟨threadOf (js "1.jsonl"), root_isUuid⟩

def metaOf (path : JsString) : SessionMeta where
  sessionId := sampleRoot
  threadId := if isUuid : IsUuid (threadOf path) then ⟨threadOf path, isUuid⟩ else sampleRoot

def metaLine (path : JsString) : Bytes :=
  encodeUtf8 (stringify (.object [(js "type", .string (js "session_meta")),
    (js "payload", .object [(js "cli_version", .string pinnedRolloutCliVersion),
      (js "id", .string (threadOf path)), (js "session_id", .string sampleRoot.val)])]))

/-- The digit `0` -/
def zero : Bytes := [0x30]

def zeroLines : Nat → Bytes
  | 0 => []
  | lines + 1 => zero ++ lineFeed :: zeroLines lines

/-- The metadata of a thread, lines that hold `0`, and a last `0` without its line feed. -/
def longFile (lines : Nat) (path : JsString) : Bytes :=
  metaLine path ++ lineFeed :: zeroLines lines ++ zero

theorem zeroLines_length (lines : Nat) : (zeroLines lines).length = 2 * lines := by
  induction lines with
  | zero => rfl
  | succ lines ih =>
      rw [zeroLines, List.length_append, List.length_cons, ih]
      show 1 + (2 * lines + 1) = _
      omega

theorem metaLine_length : ∀ path ∈ samplePaths, (metaLine path).length = 155 := by decide +kernel

theorem metaLine_oneLine : ∀ path ∈ samplePaths, lineFeed ∉ metaLine path := by decide +kernel

theorem metaLine_meta : ∀ path ∈ samplePaths,
    (jsonValue (metaLine path)).bind assertSessionMeta = some (metaOf path) := by decide +kernel

theorem zero_json : (jsonValue zero).isSome = true := by decide +kernel

theorem zero_oneLine : lineFeed ∉ zero := by decide

theorem longFile_length {path : JsString} (inside : path ∈ samplePaths) (lines : Nat) :
    (longFile lines path).length = 157 + 2 * lines := by
  rw [longFile, List.length_append, List.length_append, List.length_cons, metaLine_length path inside,
    zeroLines_length]
  show 155 + (2 * lines + 1) + 1 = _
  omega

theorem zeroLines_read (lines : Nat) : ∃ values, readLines [] (zeroLines lines) = some values := by
  induction lines with
  | zero => exact ⟨[], rfl⟩
  | succ lines ih =>
      obtain ⟨values, read⟩ := ih
      obtain ⟨value, parsed⟩ := Option.isSome_iff_exists.mp zero_json
      rw [zeroLines, readLines_line zero_oneLine, List.nil_append, parsed, read]
      exact ⟨_, rfl⟩

theorem zeroLines_terminated (line : Bytes) (lines : Nat) : Terminated (line ++ lineFeed :: zeroLines lines) := by
  induction lines generalizing line with
  | zero => exact .inr ⟨line, rfl⟩
  | succ lines ih =>
      have rest := ih (line ++ lineFeed :: zero)
      rw [List.append_assoc, List.cons_append] at rest
      exact rest

/-- A long file gets the line feed of its last line. -/
theorem longFile_analyzed {path : JsString} (inside : path ∈ samplePaths) {lines : Nat}
    (small : 158 + 2 * lines ≤ maxFileBytes) :
    analyzeBytes (longFile lines path) = some {
      action := .appendLf, after := longFile lines path ++ [lineFeed], sessionMeta := metaOf path,
      removedBytes := 0 } := by
  have notEmpty : zero ≠ [] := List.cons_ne_nil _ _
  obtain ⟨value, parsed⟩ := Option.isSome_iff_exists.mp zero_json
  obtain ⟨values, read⟩ := zeroLines_read lines
  obtain ⟨first, line, pinned⟩ := Option.bind_eq_some_iff.mp (metaLine_meta path inside)
  have size : (longFile lines path ++ [lineFeed]).length ≤ maxFileBytes := by
    rw [List.length_append, longFile_length inside]
    show 157 + 2 * lines + 1 ≤ _
    omega
  rw [longFile, analyzeBytes_lines (zeroLines_terminated _ _) zero_oneLine notEmpty,
    readLines_line (metaLine_oneLine path inside), List.nil_append, line, parsed]
  simp only [Option.bind_some, read, List.cons_append]
  exact conclude_of size pinned

def largeTree (lines : Nat) : Tree where
  paths := samplePaths
  distinct := by decide
  content := longFile lines

def entryOf (lines : Nat) (path : JsString) : Entry where
  file := { relativePath := path, bytes := longFile lines path }
  analysis := {
    action := .appendLf, after := longFile lines path ++ [lineFeed], sessionMeta := metaOf path, removedBytes := 0 }

theorem largeTree_accepted {lines : Nat} (small : 158 + 2 * lines ≤ maxFileBytes)
    (fits : 5 * (157 + 2 * lines) ≤ maxTotalBytes) :
    analyzeTree sampleRoot (largeTree lines) = .ok (samplePaths.map (entryOf lines)) := by
  have lengths : samplePaths.map (fun path => (longFile lines path).length) =
      samplePaths.map fun _ => 157 + 2 * lines :=
    List.map_congr_left fun path inside => longFile_length inside lines
  apply analyzeTree_of
  · constructor
    case files =>
      rw [List.map_map]
      rfl
    case analyzed =>
      intro entry inside
      obtain ⟨path, member, rfl⟩ := List.mem_map.mp inside
      exact longFile_analyzed member small
    case notEmpty => exact List.cons_ne_nil _ _
    case counted => show 5 ≤ 256; omega
    case summed =>
      show (samplePaths.map fun path => (longFile lines path).length).sum ≤ _
      rw [lengths, List.map_const', List.sum_replicate]
      exact fits
    case metas =>
      rw [List.map_map]
      show checkSet sampleRoot (samplePaths.map metaOf) = .ok ()
      rfl
  · intro path inside
    have size : (largeTree lines).content path = longFile lines path := rfl
    rw [size, longFile_length inside]
    omega

theorem largeTree_after (lines : Nat) :
    afterTotal (samplePaths.map (entryOf lines)) = 5 * (158 + 2 * lines) := by
  have lengths : samplePaths.map (fun path => (longFile lines path ++ [lineFeed]).length) =
      samplePaths.map fun _ => 158 + 2 * lines := by
    apply List.map_congr_left
    intro path inside
    rw [List.length_append, longFile_length inside]
    show 157 + 2 * lines + 1 = _
    omega
  rw [afterTotal, List.map_map]
  show (samplePaths.map fun path => (longFile lines path ++ [lineFeed]).length).sum = _
  rw [lengths, List.map_const', List.sum_replicate]
  rfl

/-- The order of code units. -/
def unitOrder : Collation where
  le left right := decide (left.map UInt16.toNat ≤ right.map UInt16.toNat)
  total left right := by simpa using le_total (left.map UInt16.toNat) (right.map UInt16.toNat)
  trans first second third := by simpa using le_trans

/-- Five files of 53687091 bytes, together one byte less than a scan reads: a repair adds a line feed to each. -/
theorem honest_largeTree : ¬ Honest unitOrder (largeTree 26843467) := by
  intro honest
  have accepted : analyzeTree sampleRoot (largeTree 26843467) = .ok (samplePaths.map (entryOf 26843467)) :=
    largeTree_accepted (by rw [maxFileBytes]; omega) (by rw [maxTotalBytes]; omega)
  have fits := honest_fits honest accepted
  rw [largeTree_after, maxTotalBytes] at fits
  omega

end Large

end PortableCodex.RolloutRepair
