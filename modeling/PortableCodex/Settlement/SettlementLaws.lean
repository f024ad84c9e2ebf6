import PortableCodex.Settlement.Settlement

/-!
What the settlement of physical collaborators promises, in every run in which every step is trusted.

`RecordOk` says of a record what its phase has come to. A step changes one record and the code that is to be
run (`Inv.change`, `Inv.push`, `Inv.pop`); what code on the stack knows of its record, the steps of others
keep (`Keeps`). A start callback that returns a promise behind the breach of its invocation is not trusted
where providers have to settle first: its record ends without them.
-/

/-! ### Records -/

namespace PortableCodex.Settlement

variable {Value : Type}

def Task.isFatalOf (r : InvocationId) : Task → Bool
  | .invokeFatal other _ _ => other = r
  | _ => false

def Task.isStartOf (r : InvocationId) : Task → Bool
  | .start other => other = r
  | _ => false

/-- The phases of a record that has left the active set. -/
def Phase.Ended (phase : Phase) : Prop := phase = .done ∨ phase = .breached

/-- The invariant of a record. -/
structure RecordOk (s : State Value) (r : InvocationId) (record : Record Value) : Prop where
  promise : record.promise ≠ .pending → record.phase.Ended
  active : record.active = true ↔ ¬ record.phase.Ended
  deadlineTimer : record.deadlineTimer = true → record.phase = .accepting
  graceTimer : record.graceTimer = true → record.phase = .draining
  fulfilled : ∀ value, record.promise = .fulfilled value → record.provider = .fulfilled value ∧ record.inTime = true
  inTime : record.provider.isSettled = true →
    record.inTime = true ∨ record.phase ≠ .accepting ∨ record.deadlineAt ≤ s.now
  failure : record.breach = true → s.terminalFailure = true
  unbreached : record.phase = .accepting ∨ record.phase = .draining → record.breach = false
  breached : record.phase = .breached ∨ record.phase = .quiescing → record.breach = true
  /-- `onFatal` was called once for a breach, or will be. -/
  fatal : record.fatalCalls + s.stack.countP (Task.isFatalOf r) = if record.breach then 1 else 0
  /-- The start callback runs, or has returned a promise. -/
  started : s.stack.countP (Task.isStartOf r) + (if record.provider.isNone then 0 else 1) ≤ 1
  pending : record.provider = .pending → record.providerPending = true
  quiescing : record.phase = .quiescing → s.quiescent = true ∧ record.providerPending = true
  quiet : s.quiescent = true → record.phase.Ended → record.provider ≠ .pending

/-- What code that is still to be run knows of its record. -/
def TaskOk (s : State Value) : Task → Prop
  | .settle r => ∃ record, s.records r = some record ∧ record.phase ≠ .accepting ∧ record.provider.isSettled = true
  | .invokeFatal r _ quiescing | .fatal r _ quiescing => quiescing = false →
      ∃ record, s.records r = some record ∧ record.phase = .breached
  | _ => True

structure Inv (s : State Value) : Prop where
  fresh : ∀ r, s.nextRecord ≤ r → s.records r = none
  records : ∀ r record, s.records r = some record → RecordOk s r record
  tasks : ∀ task ∈ s.stack, TaskOk s task
  /-- No code is left for a record that is not there. -/
  known : ∀ r, s.records r = none → s.stack.countP (Task.isFatalOf r) = 0 ∧ s.stack.countP (Task.isStartOf r) = 0
  running : s.lifecycle = .running → s.stop = none ∧ s.terminalFailure = false
  stopped : ∀ promise, s.stop = some promise → promise ≠ .pending →
    ∀ r record, s.records r = some record → record.active = false
  fulfilled : s.stop = some (.fulfilled ()) → s.terminalFailure = false
  late : s.lateStart = false

theorem inv_initial (quiescent : Bool) (deadlineMilliseconds settlementGraceMilliseconds : Milliseconds) :
    Inv (.initial quiescent deadlineMilliseconds settlementGraceMilliseconds : State Value) where
  fresh _ _ := rfl
  records _ _ found := by cases found
  tasks _ inside := by cases inside
  known _ _ := ⟨rfl, rfl⟩
  running _ := ⟨rfl, rfl⟩
  stopped _ never := by cases never
  fulfilled never := by cases never
  late := rfl

/-- A record keeps what the code of others knows of it. -/
structure Keeps (record next : Record Value) : Prop where
  accepting : record.phase ≠ .accepting → next.phase ≠ .accepting
  settled : record.provider.isSettled = true → next.provider.isSettled = true
  breached : record.phase = .breached → next.phase = .breached
  inactive : record.active = false → next.active = false

theorem Keeps.refl (record : Record Value) : Keeps record record := ⟨id, id, id, id⟩

section Changes

variable {s next : State Value} {r : InvocationId} {record after : Record Value}

theorem TaskOk.keep {task : Task} (h : TaskOk s task)
    (keeps : ∀ r record, s.records r = some record → ∃ after, next.records r = some after ∧ Keeps record after) :
    TaskOk next task := by
  cases task with
  | settle r =>
    obtain ⟨record, found, accepting, settled⟩ := h
    obtain ⟨after, foundAfter, kept⟩ := keeps r record found
    exact ⟨after, foundAfter, kept.accepting accepting, kept.settled settled⟩
  | invokeFatal r code quiescing =>
    intro final
    obtain ⟨record, found, breached⟩ := h final
    obtain ⟨after, foundAfter, kept⟩ := keeps r record found
    exact ⟨after, foundAfter, kept.breached breached⟩
  | fatal r code quiescing =>
    intro final
    obtain ⟨record, found, breached⟩ := h final
    obtain ⟨after, foundAfter, kept⟩ := keeps r record found
    exact ⟨after, foundAfter, kept.breached breached⟩
  | _ => exact trivial

/-- The parts of the state that only `invoke`, `stop` and its end change. -/
structure Same (s next : State Value) : Prop where
  nextRecord : next.nextRecord = s.nextRecord
  quiescent : next.quiescent = s.quiescent
  lateStart : next.lateStart = s.lateStart
  stop : next.stop = s.stop
  now : s.now ≤ next.now

/-- A step of one record. -/
theorem Inv.change (h : Inv s) (found : s.records r = some record) (same : Same s next)
    (records : next.records = Function.update s.records r (some after)) (keeps : Keeps record after)
    (failure : s.terminalFailure = true → next.terminalFailure = true)
    (lifecycle : next.lifecycle = .running → s.lifecycle = .running ∧ next.terminalFailure = s.terminalFailure)
    (fails : next.terminalFailure = s.terminalFailure ∨ record.active = true)
    (ok : RecordOk next r after)
    (others : ∀ other, other ≠ r → next.stack.countP (Task.isFatalOf other) = s.stack.countP (Task.isFatalOf other))
    (starts : ∀ other, next.stack.countP (Task.isStartOf other) ≤ s.stack.countP (Task.isStartOf other))
    (tasks : ∀ task ∈ next.stack, task ∈ s.stack ∨ TaskOk next task) : Inv next := by
  have place {other : InvocationId} (apart : other ≠ r) : next.records other = s.records other := by
    rw [records, Function.update_of_ne apart]
  have atRecord : next.records r = some after := by
    rw [records, Function.update_self]
  have unfailed (stop : ∃ promise, s.stop = some promise ∧ promise ≠ .pending) :
      next.terminalFailure = s.terminalFailure := by
    rcases fails with equal | active
    · exact equal
    · obtain ⟨promise, stopped, settled⟩ := stop
      rw [h.stopped promise stopped settled r record found] at active
      cases active
  constructor
  · intro other late
    rw [same.nextRecord] at late
    by_cases apart : other = r
    · rw [apart] at late
      rw [h.fresh r late] at found
      cases found
    · rw [place apart]
      exact h.fresh other late
  · intro other otherRecord foundOther
    by_cases apart : other = r
    · subst apart
      rw [atRecord] at foundOther
      obtain rfl := Option.some.inj foundOther
      exact ok
    · rw [place apart] at foundOther
      have before := h.records other otherRecord foundOther
      refine { before with inTime := ?_, failure := ?_, fatal := ?_, started := ?_, quiescing := ?_, quiet := ?_ }
      · intro settled
        rcases before.inTime settled with inTime | left | passed
        · exact .inl inTime
        · exact .inr (.inl left)
        · exact .inr (.inr (Nat.le_trans passed same.now))
      · exact fun breach => failure (before.failure breach)
      · rw [others other apart]
        exact before.fatal
      · exact Nat.le_trans (Nat.add_le_add_right (starts other) _) before.started
      · rw [same.quiescent]
        exact before.quiescing
      · rw [same.quiescent]
        exact before.quiet
  · intro task inside
    rcases tasks task inside with there | fresh
    · refine (h.tasks task there).keep ?_
      intro other otherRecord foundOther
      by_cases apart : other = r
      · subst apart
        obtain rfl := Option.some.inj (found.symm.trans foundOther)
        exact ⟨after, atRecord, keeps⟩
      · exact ⟨otherRecord, (place apart).trans foundOther, .refl otherRecord⟩
    · exact fresh
  · intro other none
    by_cases apart : other = r
    · rw [apart, atRecord] at none
      cases none
    · rw [place apart] at none
      rw [others other apart]
      obtain ⟨fatal, start⟩ := h.known other none
      exact ⟨fatal, Nat.le_zero.mp (start ▸ starts other)⟩
  · intro runs
    obtain ⟨before, equal⟩ := lifecycle runs
    rw [same.stop, equal]
    exact h.running before
  · intro promise stopped settled other otherRecord foundOther
    rw [same.stop] at stopped
    by_cases apart : other = r
    · subst apart
      rw [atRecord] at foundOther
      obtain rfl := Option.some.inj foundOther
      exact keeps.inactive (h.stopped promise stopped settled other record found)
    · rw [place apart] at foundOther
      exact h.stopped promise stopped settled other otherRecord foundOther
  · intro stopped
    rw [same.stop] at stopped
    rw [unfailed ⟨_, stopped, fun never => by cases never⟩]
    exact h.fulfilled stopped
  · rw [same.lateStart]
    exact h.late

/-- Code without a call of `onFatal`, whose records are known to be as it needs them. -/
theorem Inv.push (h : Inv s) {tasks : List Task}
    (quiet : ∀ r, tasks.countP (Task.isFatalOf r) = 0 ∧ tasks.countP (Task.isStartOf r) = 0)
    (ok : ∀ task ∈ tasks, TaskOk s task) : Inv (s.push tasks) where
  fresh := h.fresh
  records r record found := by
    have before := h.records r record found
    refine { before with fatal := ?_, started := ?_ }
    · show _ + List.countP _ (tasks ++ s.stack) = _
      rw [List.countP_append, (quiet r).1, Nat.zero_add]
      exact before.fatal
    · show List.countP _ (tasks ++ s.stack) + _ ≤ _
      rw [List.countP_append, (quiet r).2, Nat.zero_add]
      exact before.started
  tasks task inside := by
    rcases List.mem_append.mp inside with new | there
    · exact (ok task new).keep fun _ record found => ⟨record, found, .refl record⟩
    · exact (h.tasks task there).keep fun _ record found => ⟨record, found, .refl record⟩
  known r none := by
    show List.countP _ (tasks ++ s.stack) = _ ∧ List.countP _ (tasks ++ s.stack) = _
    rw [List.countP_append, List.countP_append, (quiet r).1, (quiet r).2, Nat.zero_add, Nat.zero_add]
    exact h.known r none
  running := h.running
  stopped := h.stopped
  fulfilled := h.fulfilled
  late := h.late

/-- A step of one record that leaves everything else as it is. -/
theorem Inv.setRecord (h : Inv s) (found : s.records r = some record) (keeps : Keeps record after)
    (ok : RecordOk s r after) : Inv (s.setRecord r after) := by
  refine h.change found ⟨rfl, rfl, rfl, rfl, Nat.le_refl _⟩ rfl keeps id (fun runs => ⟨runs, rfl⟩) (.inl rfl) ?_
    (fun _ _ => rfl) (fun _ => Nat.le_refl _) (fun _ inside => .inl inside)
  exact { ok with }

/-- Code that has been run, other than a call of `onFatal`. -/
theorem Inv.pop (h : Inv s) {task : Task} {rest : List Task} (top : s.stack = task :: rest)
    (quiet : ∀ r, task.isFatalOf r = false) : Inv { s with stack := rest } := by
  have fatal (r : InvocationId) : s.stack.countP (Task.isFatalOf r) = rest.countP (Task.isFatalOf r) := by
    rw [top, List.countP_cons_of_neg (by rw [quiet]; exact Bool.false_ne_true)]
  have start (r : InvocationId) : rest.countP (Task.isStartOf r) ≤ s.stack.countP (Task.isStartOf r) := by
    rw [top, List.countP_cons]
    exact Nat.le_add_right _ _
  constructor
  · exact h.fresh
  · intro r record found
    have before := h.records r record found
    refine { before with fatal := ?_, started := ?_ }
    · show _ + List.countP _ rest = _
      rw [← fatal]
      exact before.fatal
    · exact Nat.le_trans (Nat.add_le_add_right (start r) _) before.started
  · intro other inside
    refine (h.tasks other ?_).keep fun _ record found => ⟨record, found, .refl record⟩
    rw [top]
    exact List.mem_cons_of_mem _ inside
  · intro r none
    obtain ⟨noFatal, noStart⟩ := h.known r none
    exact ⟨(fatal r).symm.trans noFatal, Nat.le_zero.mp (noStart ▸ start r)⟩
  · exact h.running
  · exact h.stopped
  · exact h.fulfilled
  · exact h.late

/-- Code that knows nothing of its record. -/
def Task.isPlain : Task → Bool
  | .settle _ | .invokeFatal _ _ _ | .fatal _ _ _ | .start _ => false
  | _ => true

theorem Inv.pushPlain (h : Inv s) {tasks : List Task} (plain : tasks.all Task.isPlain = true) : Inv (s.push tasks) := by
  rw [List.all_eq_true] at plain
  refine h.push ?_ ?_
  · intro r
    rw [List.countP_eq_zero, List.countP_eq_zero]
    constructor
    · intro task inside
      have isPlain := plain task inside
      cases task <;> first | exact Bool.false_ne_true | cases isPlain
    · intro task inside
      have isPlain := plain task inside
      cases task <;> first | exact Bool.false_ne_true | cases isPlain
  · intro task inside
    have isPlain := plain task inside
    cases task <;> first | exact trivial | cases isPlain

end Changes

/-! ### The code -/

section Code

variable {s next : State Value} {r : InvocationId} {record : Record Value}

theorem accepting_not_ended : ¬ Phase.Ended .accepting := by
  rintro (never | never) <;> cases never

theorem draining_not_ended : ¬ Phase.Ended .draining := by
  rintro (never | never) <;> cases never

theorem quiescing_not_ended : ¬ Phase.Ended .quiescing := by
  rintro (never | never) <;> cases never

theorem PromiseState.settle_fulfilled {promise settled : PromiseState Value} {value : Value}
    (h : promise.settle settled = .fulfilled value) : promise = .fulfilled value ∨ promise = .pending ∧ settled = .fulfilled value := by
  cases promise with
  | pending => exact .inr ⟨rfl, h⟩
  | fulfilled other => exact .inl h
  | rejected code => cases h

theorem not_pending_of_isSettled {provider : Provider Value} (settled : provider.isSettled = true) :
    provider ≠ .pending := by
  rintro rfl
  cases settled

theorem Inv.finishRecord (h : Inv s) (found : s.records r = some record)
    (settled : record.provider.isSettled = true) (live : ¬ record.phase.Ended) {outcome : PromiseState Value}
    (honest : ∀ value, outcome = .fulfilled value → record.provider = .fulfilled value ∧ record.inTime = true) :
    Inv (s.finishRecord r { record with providerPending := false } outcome) := by
  have before := h.records r record found
  have finished : Inv (s.setRecord r { record with
      providerPending := false
      deadlineTimer := false
      graceTimer := false
      phase := .done
      active := false
      promise := record.promise.settle outcome }) := by
    refine h.setRecord found ⟨fun _ never => (by cases never), id, fun breached => absurd (.inr breached) live,
      fun _ => rfl⟩ ?_
    refine { before with
      promise := fun _ => .inl rfl
      active := ⟨fun never => (by cases never), fun never => absurd (.inl rfl) never⟩
      deadlineTimer := fun never => by cases never
      graceTimer := fun never => by cases never
      fulfilled := ?_
      inTime := fun _ => .inr (.inl fun never => by cases never)
      unbreached := fun never => by rcases never with never | never <;> cases never
      breached := fun never => by rcases never with never | never <;> cases never
      pending := fun never => absurd never (not_pending_of_isSettled settled)
      quiet := fun _ _ => not_pending_of_isSettled settled
      quiescing := fun never => by cases never }
    intro value same
    rcases PromiseState.settle_fulfilled same with earlier | ⟨-, now⟩
    · exact before.fulfilled value earlier
    · exact honest value now
  exact finished.pushPlain rfl

theorem Inv.settle (h : Inv s) (found : s.records r = some record) (settled : record.provider.isSettled = true)
    (inTime : record.phase = .accepting → record.inTime = true) : Inv (s.settle r record) := by
  unfold State.settle
  dsimp only
  split
  · exact h
  · exact h
  · rename_i phase
    refine h.finishRecord found settled ?_ fun _ never => by cases never
    rw [phase]
    exact quiescing_not_ended
  · rename_i phase
    refine h.finishRecord found settled ?_ fun _ never => by cases never
    rw [phase]
    exact draining_not_ended
  · rename_i value phase provider
    refine h.finishRecord found settled ?_ ?_
    · rw [phase]
      exact accepting_not_ended
    · intro other same
      obtain rfl := PromiseState.fulfilled.inj same
      exact ⟨provider, inTime phase⟩
  · rename_i phase _
    refine h.finishRecord found settled ?_ fun _ never => by cases never
    rw [phase]
    exact accepting_not_ended

theorem Inv.breachRecord (h : Inv s) (found : s.records r = some record) (code : ErrorCode) :
    Inv (s.breachRecord r record code) := by
  have before := h.records r record found
  unfold State.breachRecord
  dsimp only
  split
  · exact h
  · rename_i goes
    rw [not_or, not_or] at goes
    obtain ⟨notDone, notBreached, notQuiescing⟩ := goes
    have live : ¬ record.phase.Ended := by
      rintro (done | breached)
      · exact notDone done
      · exact notBreached breached
    have unbreached : record.breach = false := by
      cases phase : record.phase with
      | accepting => exact before.unbreached (.inl phase)
      | draining => exact before.unbreached (.inr phase)
      | quiescing =>
        obtain ⟨quiescent, pending⟩ := before.quiescing phase
        exact absurd ⟨by rw [quiescent, pending]; rfl, phase⟩ notQuiescing
      | breached => exact absurd phase notBreached
      | done => exact absurd phase notDone
    have none := before.fatal
    rw [unbreached, if_neg Bool.false_ne_true] at none
    have starts (other : InvocationId) (quiescing : Bool) : List.countP (Task.isStartOf other)
        ((if record.aborted = true then [Task.invokeFatal r code quiescing]
          else [.abort r, .invokeFatal r code quiescing]) ++ s.stack) = s.stack.countP (Task.isStartOf other) := by
      split <;> simp [Task.isStartOf]
    have active := before.active.mpr live
    refine h.change found ⟨rfl, rfl, rfl, rfl, Nat.le_refl _⟩ rfl ?_ (fun _ => rfl) ?_ (.inr active) ?_ ?_
      (fun other => Nat.le_of_eq (starts other _)) ?_
    · refine ⟨fun _ => ?_, id, fun breached => absurd breached notBreached, fun inactive => ?_⟩
      · dsimp only
        split <;> intro never <;> cases never
      · rw [active] at inactive
        cases inactive
    · intro runs
      dsimp only [State.push] at runs
      split at runs
      · cases runs
      · rename_i other
        exact absurd runs other
    · cases quiescing : s.quiescent && record.providerPending with
      | true =>
        obtain ⟨quiescent, pending⟩ := Bool.and_eq_true_iff.mp quiescing
        refine { before with
          promise := fun settled => absurd (before.promise settled) live
          active := ⟨fun _ => quiescing_not_ended, fun _ => rfl⟩
          deadlineTimer := fun never => by cases never
          graceTimer := fun never => by cases never
          inTime := fun _ => .inr (.inl fun never => by cases never)
          failure := fun _ => rfl
          unbreached := fun never => by rcases never with never | never <;> cases never
          breached := fun _ => rfl
          fatal := ?_
          started := (starts r true).symm ▸ before.started
          quiet := fun _ ended => absurd ended quiescing_not_ended
          quiescing := fun _ => ⟨quiescent, pending⟩ }
        show record.fatalCalls + List.countP _ ((if _ then _ else _) ++ s.stack) = 1
        rw [List.countP_append]
        have one : List.countP (Task.isFatalOf r) (if record.aborted = true then [Task.invokeFatal r code true]
            else [.abort r, .invokeFatal r code true]) = 1 := by
          split <;> simp [Task.isFatalOf]
        rw [one]
        omega
      | false =>
        refine { before with
          promise := fun settled => absurd (before.promise settled) live
          active := ⟨fun never => (by cases never), fun never => absurd (.inr rfl) never⟩
          deadlineTimer := fun never => by cases never
          graceTimer := fun never => by cases never
          inTime := fun _ => .inr (.inl fun never => by cases never)
          failure := fun _ => rfl
          unbreached := fun never => by rcases never with never | never <;> cases never
          breached := fun _ => rfl
          fatal := ?_
          started := (starts r false).symm ▸ before.started
          quiet := ?_
          quiescing := fun never => by cases never }
        · show record.fatalCalls + List.countP _ ((if _ then _ else _) ++ s.stack) = 1
          rw [List.countP_append]
          have one : List.countP (Task.isFatalOf r) (if record.aborted = true then [Task.invokeFatal r code false]
              else [.abort r, .invokeFatal r code false]) = 1 := by
            split <;> simp [Task.isFatalOf]
          rw [one]
          omega
        · intro quiescent _ pending
          change s.quiescent = true at quiescent
          rw [quiescent, before.pending pending] at quiescing
          cases quiescing
    · intro other apart
      show List.countP _ ((if _ then _ else _) ++ s.stack) = _
      rw [List.countP_append]
      have zero (quiescing : Bool) : List.countP (Task.isFatalOf other)
          (if record.aborted = true then [Task.invokeFatal r code quiescing]
            else [.abort r, .invokeFatal r code quiescing]) = 0 := by
        split <;> simp [Task.isFatalOf, apart.symm]
      rw [zero, Nat.zero_add]
    · intro task inside
      rcases List.mem_append.mp inside with new | there
      · right
        have which : task = .abort r ∨ task = .invokeFatal r code (s.quiescent && record.providerPending) := by
          split at new
          · exact .inr (List.mem_singleton.mp new)
          · rcases List.mem_cons.mp new with first | second
            · exact .inl first
            · exact .inr (List.mem_singleton.mp second)
        rcases which with rfl | rfl
        · exact trivial
        · intro final
          refine ⟨_, Function.update_self _ _ _, ?_⟩
          dsimp only
          rw [if_neg (by rw [final]; exact Bool.false_ne_true)]
      · exact .inl there

/-- `onFatal` is called. -/
theorem Inv.invokeFatal (h : Inv s) {code : ErrorCode} {quiescing : Bool} {rest : List Task}
    (top : s.stack = .invokeFatal r code quiescing :: rest) (found : s.records r = some record) :
    Inv ({ s with stack := rest }.invokeFatal r record code quiescing) := by
  have before := h.records r record found
  have known : TaskOk s (.invokeFatal r code quiescing) := h.tasks _ (by rw [top]; exact List.mem_cons_self)
  refine h.change found ⟨rfl, rfl, rfl, rfl, Nat.le_refl _⟩ rfl ⟨id, id, id, id⟩ id (fun runs => ⟨runs, rfl⟩)
    (.inl rfl) ?_ ?_ ?_ ?_
  · refine { before with fatal := ?_, started := ?_ }
    · have fatal := before.fatal
      rw [top, List.countP_cons_of_pos (by simp [Task.isFatalOf])] at fatal
      show record.fatalCalls + 1 + List.countP _ ([.fatal r code quiescing] ++ rest) = if record.breach then 1 else 0
      rw [List.singleton_append, List.countP_cons_of_neg Bool.false_ne_true]
      omega
    · have started := before.started
      rw [top, List.countP_cons_of_neg Bool.false_ne_true] at started
      show List.countP _ ([.fatal r code quiescing] ++ rest) + _ ≤ _
      rw [List.singleton_append, List.countP_cons_of_neg Bool.false_ne_true]
      exact started
  · intro other apart
    show List.countP _ ([.fatal r code quiescing] ++ rest) = _
    rw [top, List.singleton_append, List.countP_cons_of_neg Bool.false_ne_true,
      List.countP_cons_of_neg (by simp [Task.isFatalOf, apart.symm])]
  · intro other
    apply Nat.le_of_eq
    show List.countP _ ([.fatal r code quiescing] ++ rest) = _
    rw [top, List.singleton_append, List.countP_cons_of_neg Bool.false_ne_true,
      List.countP_cons_of_neg Bool.false_ne_true]
  · intro task inside
    rcases List.mem_append.mp inside with new | there
    · obtain rfl := List.mem_singleton.mp new
      right
      intro final
      obtain ⟨other, foundOther, breached⟩ := known final
      obtain rfl := Option.some.inj (found.symm.trans foundOther)
      exact ⟨_, Function.update_self _ _ _, breached⟩
    · left
      rw [top]
      exact List.mem_cons_of_mem _ there

/-- Fields that the invariant does not look at. -/
theorem Inv.relabel (h : Inv s) {code : Option ErrorCode} {inFlight : Nat} :
    Inv { s with terminalFailureCode := code, fatalCallbacksInFlight := inFlight } where
  fresh := h.fresh
  records r record found := { h.records r record found with }
  tasks task inside := (h.tasks task inside).keep fun _ record found => ⟨record, found, .refl record⟩
  known := h.known
  running := h.running
  stopped := h.stopped
  fulfilled := h.fulfilled
  late := h.late

theorem Inv.endFatal (h : Inv s) (found : s.records r = some record) {code : ErrorCode} {quiescing succeeded : Bool}
    (breached : quiescing = false → record.phase = .breached) :
    Inv (s.endFatal r record code quiescing succeeded) := by
  have returned : Inv (s.returnFatal succeeded) := h.relabel
  have foundAfter : (s.returnFatal succeeded).records r = some record := found
  have before := returned.records r record foundAfter
  unfold State.endFatal
  cases quiescing with
  | true => exact returned.setRecord foundAfter ⟨id, id, id, id⟩ { before with }
  | false =>
    have phase := breached rfl
    have rejected : RecordOk (s.returnFatal succeeded) r
        { record with promise := record.promise.settle (.rejected code) } := by
      refine { before with promise := fun _ => .inr phase, fulfilled := ?_ }
      intro value same
      rcases PromiseState.settle_fulfilled same with earlier | ⟨-, never⟩
      · exact before.fulfilled value earlier
      · cases never
    refine Inv.pushPlain ?_ rfl
    exact returned.setRecord foundAfter ⟨id, id, id, id⟩ rejected

theorem Inv.beginGrace (h : Inv s) (found : s.records r = some record) (trigger : Trigger)
    (explicit : Option Milliseconds) : Inv (s.beginGrace r record trigger explicit) := by
  unfold State.beginGrace
  split
  · rename_i phase
    have before := h.records r record found
    have live : ¬ record.phase.Ended := by
      rw [phase]
      exact accepting_not_ended
    refine Inv.pushPlain ?_ rfl
    refine h.setRecord found ⟨?_, id, fun breached => ?_, id⟩ ?_
    · intro _ never
      cases never
    · rw [phase] at breached
      cases breached
    · exact { before with
        promise := fun settled => absurd (before.promise settled) live
        active := ⟨fun _ => draining_not_ended, fun _ => before.active.mpr live⟩
        deadlineTimer := fun never => by cases never
        graceTimer := fun _ => rfl
        inTime := fun _ => .inr (.inl fun never => by cases never)
        unbreached := fun _ => before.unbreached (.inl phase)
        breached := fun never => by rcases never with never | never <;> cases never
        quiet := fun _ ended => absurd ended draining_not_ended
        quiescing := fun never => by cases never }
  · exact h

theorem Inv.armDeadlineTimer (h : Inv s) (found : s.records r = some record) : Inv (s.armDeadlineTimer r record) := by
  unfold State.armDeadlineTimer
  split
  · rename_i phase
    split
    · exact h.pushPlain rfl
    · exact h.setRecord found ⟨id, id, id, id⟩ { h.records r record found with deadlineTimer := fun _ => phase }
  · exact h

theorem Inv.armGraceTimer (h : Inv s) (found : s.records r = some record) : Inv (s.armGraceTimer r record) := by
  unfold State.armGraceTimer
  split
  · rename_i phase
    split
    · exact h.pushPlain rfl
    · exact h.setRecord found ⟨id, id, id, id⟩ { h.records r record found with graceTimer := fun _ => phase }
  · exact h

theorem Inv.enforceGraceExpiry (h : Inv s) : Inv (s.enforceGraceExpiry r record) := by
  unfold State.enforceGraceExpiry
  split
  · exact h.pushPlain rfl
  · exact h

theorem Inv.enforceElapsedBoundaries (h : Inv s) : Inv (s.enforceElapsedBoundaries r record) := by
  unfold State.enforceElapsedBoundaries
  split
  · exact h.pushPlain rfl
  · exact h.enforceGraceExpiry

/-- A settled provider is observed. -/
theorem Inv.observe (h : Inv s) (found : s.records r = some record) (settled : record.provider.isSettled = true) :
    Inv (s.observe r record) := by
  have before := h.records r record found
  have observed : Inv (s.setRecord r { record with observed := true }) :=
    h.setRecord found ⟨id, id, id, id⟩ { before with }
  have foundAfter : (s.setRecord r { record with observed := true }).records r = some { record with observed := true } :=
    Function.update_self _ _ _
  unfold State.observe
  dsimp only
  split
  · exact observed
  · split
    · rename_i accepting
      split
      · rename_i early
        refine observed.settle foundAfter settled fun _ => ?_
        rcases before.inTime settled with inTime | left | passed
        · exact inTime
        · exact absurd accepting left
        · exact absurd early (Nat.not_lt.mpr passed)
      · -- the deadline has passed, so the record drains before it is settled
        have graced := observed.beginGrace foundAfter .deadline none
        unfold State.beginGrace at graced ⊢
        rw [if_pos accepting] at graced ⊢
        have foundDraining := Function.update_self r (some { ({ record with observed := true } : Record Value) with
          phase := .draining
          trigger := .deadline
          deadlineTimer := false
          graceExpiresAt := record.deadlineAt + s.settlementGraceMilliseconds })
          (Function.update s.records r (some { record with observed := true }))
        constructor
        · exact graced.fresh
        · intro other otherRecord foundOther
          exact { graced.records other otherRecord foundOther with }
        · intro task inside
          rcases List.mem_append.mp inside with new | old
          · exact (graced.tasks task (List.mem_append_left _ new)).keep
              fun _ record found => ⟨record, found, .refl record⟩
          · rcases List.mem_append.mp old with mine | there
            · rcases List.mem_cons.mp mine with rfl | last
              · exact trivial
              · obtain rfl := List.mem_singleton.mp last
                exact ⟨_, foundDraining, (fun never => by cases never), settled⟩
            · exact (graced.tasks task (List.mem_append_right _ there)).keep
                fun _ record found => ⟨record, found, .refl record⟩
        · exact graced.known
        · exact graced.running
        · exact graced.stopped
        · exact graced.fulfilled
        · exact graced.late
    · rename_i left
      refine observed.push ?_ ?_
      · intro _
        exact ⟨rfl, rfl⟩
      · intro task inside
        rcases List.mem_cons.mp inside with rfl | last
        · exact trivial
        · obtain rfl := List.mem_singleton.mp last
          exact ⟨_, foundAfter, left, settled⟩

theorem mem_activeRecords (h : Inv s) (found : s.records r = some record) (active : record.active = true) :
    r ∈ s.activeRecords := by
  refine List.mem_filter.mpr ⟨?_, ?_⟩
  · rw [List.mem_range]
    by_contra late
    rw [h.fresh r (Nat.le_of_not_lt late)] at found
    cases found
  · rw [found]
    exact active

theorem Inv.maybeCompleteStop (h : Inv s) : Inv s.maybeCompleteStop := by
  unfold State.maybeCompleteStop
  split
  · exact h
  · rename_i stop stopped
    split
    · exact h
    · rename_i idle
      rw [not_or, not_not] at idle
      have inactive : ∀ r record, s.records r = some record → record.active = false := by
        intro r record found
        by_contra active
        have inside := mem_activeRecords h found (Bool.not_eq_false _ ▸ active)
        rw [idle.1] at inside
        cases inside
      split
      · refine ⟨h.fresh, fun r record found => { h.records r record found with }, fun task inside => ?_, h.known,
          fun never => (by cases never), fun _ _ _ => inactive, fun same => ?_, h.late⟩
        · exact (h.tasks task inside).keep fun _ record found => ⟨record, found, .refl record⟩
        · rcases PromiseState.settle_fulfilled (Option.some.inj same) with earlier | ⟨-, never⟩
          · rw [earlier] at stopped
            exact h.fulfilled stopped
          · cases never
      · rename_i unfailed
        refine ⟨h.fresh, fun r record found => { h.records r record found with }, fun task inside => ?_, h.known,
          fun never => (by cases never), fun _ _ _ => inactive, fun _ => ?_, h.late⟩
        · exact (h.tasks task inside).keep fun _ record found => ⟨record, found, .refl record⟩
        · exact Bool.not_eq_true _ ▸ unfailed

/-- The code on top is run. -/
theorem Inv.run (h : Inv s) {task : Task} {rest : List Task} (top : s.stack = task :: rest)
    (step : { s with stack := rest }.run task = some next) : Inv next := by
  cases task with
  | start r => cases step
  | abort r => cases step
  | fatal r code quiescing => cases step
  | invokeFatal r code quiescing =>
    obtain ⟨record, found, rfl⟩ := Option.map_eq_some_iff.mp step
    exact h.invokeFatal top found
  | beginGrace r trigger explicit =>
    obtain ⟨record, found, rfl⟩ := Option.map_eq_some_iff.mp step
    exact (h.pop top fun _ => rfl).beginGrace found trigger explicit
  | armDeadlineTimer r =>
    obtain ⟨record, found, rfl⟩ := Option.map_eq_some_iff.mp step
    exact (h.pop top fun _ => rfl).armDeadlineTimer found
  | armGraceTimer r =>
    obtain ⟨record, found, rfl⟩ := Option.map_eq_some_iff.mp step
    exact (h.pop top fun _ => rfl).armGraceTimer found
  | abortGrace r =>
    obtain ⟨record, found, rfl⟩ := Option.map_eq_some_iff.mp step
    have popped := h.pop top fun _ => rfl
    split
    · refine Inv.pushPlain ?_ rfl
      exact popped.setRecord found ⟨id, id, id, id⟩ { popped.records r record found with }
    · exact popped
  | enforceGraceExpiry r =>
    obtain ⟨record, found, rfl⟩ := Option.map_eq_some_iff.mp step
    exact (h.pop top fun _ => rfl).enforceGraceExpiry
  | enforceElapsedBoundaries r =>
    obtain ⟨record, found, rfl⟩ := Option.map_eq_some_iff.mp step
    exact (h.pop top fun _ => rfl).enforceElapsedBoundaries
  | breachRecord r code =>
    obtain ⟨record, found, rfl⟩ := Option.map_eq_some_iff.mp step
    exact (h.pop top fun _ => rfl).breachRecord found code
  | contractBreach r =>
    obtain ⟨record, found, rfl⟩ := Option.map_eq_some_iff.mp step
    have popped := h.pop top fun _ => rfl
    split
    · exact popped.pushPlain rfl
    · exact popped
  | settle r =>
    obtain ⟨record, found, rfl⟩ := Option.map_eq_some_iff.mp step
    have known : TaskOk s (.settle r) := h.tasks _ (by rw [top]; exact List.mem_cons_self)
    obtain ⟨other, foundOther, left, settled⟩ := known
    obtain rfl := Option.some.inj (foundOther.symm.trans found)
    exact (h.pop top fun _ => rfl).settle found settled fun accepting => absurd accepting left
  | abortActive records expires =>
    have popped := h.pop top fun _ => rfl
    cases records with
    | nil =>
      obtain rfl := Option.some.inj step
      exact popped
    | cons r records =>
      obtain rfl := Option.some.inj step
      exact popped.pushPlain rfl
  | maybeCompleteStop =>
    obtain rfl := Option.some.inj step
    exact (h.pop top fun _ => rfl).maybeCompleteStop

/-- No start callback returns a promise when its invocation has already ended, where providers have to
settle first. -/
def Trusted (s : State Value) (event : Event Value) : Prop :=
  s.quiescent = true → event = .endStart true → ∀ r rest record, s.stack = .start r :: rest →
    s.records r = some record → ¬ record.phase.Ended

theorem Inv.tick (h : Inv s) (elapsed : Milliseconds) : Inv { s with now := s.now + elapsed } where
  fresh := h.fresh
  records r record found := by
    have before := h.records r record found
    refine { before with inTime := fun settled => ?_ }
    rcases before.inTime settled with inTime | left | passed
    · exact .inl inTime
    · exact .inr (.inl left)
    · exact .inr (.inr (Nat.le_trans passed (Nat.le_add_right _ _)))
  tasks task inside := (h.tasks task inside).keep fun _ record found => ⟨record, found, .refl record⟩
  known := h.known
  running := h.running
  stopped := h.stopped
  fulfilled := h.fulfilled
  late := h.late

/-- A new invocation, with its start callback or without. -/
theorem Inv.begin (h : Inv s) (runs : s.lifecycle = .running) (deadlineTimer : Bool) (elapsed : Milliseconds)
    {started : List Task} (only : started = [] ∨ started = [.start s.nextRecord]) :
    Inv { s with
      now := s.now + elapsed
      nextRecord := s.nextRecord + 1
      records := Function.update s.records s.nextRecord (some (s.newRecord deadlineTimer))
      stack := started ++ s.stack } := by
  have later := h.tick elapsed
  obtain ⟨noFatal, noStart⟩ := h.known s.nextRecord (h.fresh _ (Nat.le_refl _))
  have fatal (r : InvocationId) : (started ++ s.stack).countP (Task.isFatalOf r) = s.stack.countP (Task.isFatalOf r) := by
    rcases only with rfl | rfl
    · rfl
    · exact List.countP_cons_of_neg Bool.false_ne_true
  have start (r : InvocationId) (other : r ≠ s.nextRecord) :
      (started ++ s.stack).countP (Task.isStartOf r) = s.stack.countP (Task.isStartOf r) := by
    rcases only with rfl | rfl
    · rfl
    · exact List.countP_cons_of_neg (by simp [Task.isStartOf, other.symm])
  have startNew : (started ++ s.stack).countP (Task.isStartOf s.nextRecord) ≤ 1 := by
    rcases only with rfl | rfl
    · show s.stack.countP _ ≤ 1
      rw [noStart]
      exact Nat.zero_le 1
    · apply Nat.le_of_eq
      rw [List.singleton_append, List.countP_cons_of_pos (by simp [Task.isStartOf]), noStart]
  constructor
  · intro r late
    show Function.update s.records s.nextRecord _ r = none
    rw [Function.update_of_ne (Nat.ne_of_gt late)]
    exact h.fresh r (Nat.le_of_lt late)
  · intro r other found
    change Function.update s.records s.nextRecord _ r = _ at found
    by_cases same : r = s.nextRecord
    · subst same
      rw [Function.update_self] at found
      obtain rfl := Option.some.inj found
      exact {
        promise := fun settled => absurd rfl settled
        active := ⟨fun _ => accepting_not_ended, fun _ => rfl⟩
        deadlineTimer := fun _ => rfl
        graceTimer := fun never => by cases never
        fulfilled := fun _ never => by cases never
        inTime := fun never => by cases never
        failure := fun never => by cases never
        unbreached := fun _ => rfl
        breached := fun never => by rcases never with never | never <;> cases never
        fatal := (Nat.zero_add _).trans ((fatal _).trans noFatal)
        started := startNew
        pending := fun never => by cases never
        quiescing := fun never => by cases never
        quiet := fun _ ended => absurd ended accepting_not_ended }
    · rw [Function.update_of_ne same] at found
      have before := later.records r other found
      refine { before with fatal := ?_, started := ?_ }
      · rw [fatal]
        exact before.fatal
      · rw [start r same]
        exact before.started
  · intro task inside
    rcases List.mem_append.mp inside with first | there
    · rcases only with rfl | rfl
      · cases first
      · obtain rfl := List.mem_singleton.mp first
        exact trivial
    · refine (h.tasks task there).keep fun r other found => ⟨other, ?_, .refl other⟩
      show Function.update s.records s.nextRecord _ r = _
      rw [Function.update_of_ne]
      · exact found
      · rintro rfl
        rw [h.fresh _ (Nat.le_refl _)] at found
        cases found
  · intro r none
    change Function.update s.records s.nextRecord _ r = _ at none
    by_cases same : r = s.nextRecord
    · rw [same, Function.update_self] at none
      cases none
    · rw [Function.update_of_ne same] at none
      rw [fatal, start r same]
      exact h.known r none
  · exact h.running
  · intro promise stopped
    rw [show s.stop = none from (h.running runs).1] at stopped
    cases stopped
  · exact h.fulfilled
  · exact h.late

/-- A settlement that runs has neither been stopped nor failed. -/
theorem Inv.not_isLate (h : Inv s) (runs : s.lifecycle = .running) : s.isLate = false := by
  obtain ⟨stop, failure⟩ := h.running runs
  unfold State.isLate
  rw [stop, Option.isSome_none, Bool.false_or, List.any_eq_false]
  intro r _ breach
  cases found : s.records r with
  | none =>
    rw [found] at breach
    cases breach
  | some record =>
    rw [found] at breach
    rw [(h.records r record found).failure breach] at failure
    cases failure

theorem Inv.invoke (h : Inv s) (elapsed : Milliseconds) : Inv (s.invoke elapsed) := by
  unfold State.invoke
  split
  · rename_i runs
    dsimp only
    split
    · refine Inv.pushPlain ?_ rfl
      exact h.begin runs false elapsed (.inl rfl)
    · have begun := h.begin runs true elapsed (.inr rfl)
      refine ⟨begun.fresh, fun r record found => { begun.records r record found with }, fun task inside => ?_,
        begun.known, begun.running, begun.stopped, begun.fulfilled, ?_⟩
      · exact (begun.tasks task inside).keep fun _ record found => ⟨record, found, .refl record⟩
      · show (s.lateStart || s.isLate) = false
        rw [h.late, h.not_isLate runs]
        rfl
  · exact h

theorem Inv.callStop (h : Inv s) : Inv s.callStop := by
  unfold State.callStop
  split
  · exact h
  · rename_i stop
    refine Inv.pushPlain ?_ rfl
    refine ⟨h.fresh, fun r record found => { h.records r record found with }, fun task inside => ?_, h.known,
      fun never => ?_, fun promise same settled => ?_, fun never => (by cases never), h.late⟩
    · exact (h.tasks task inside).keep fun _ record found => ⟨record, found, .refl record⟩
    · dsimp only at never
      split at never <;> cases never
    · exact absurd (Option.some.inj same).symm settled

theorem Inv.accept (h : Inv s) {rest : List Task} (top : s.stack = .start r :: rest)
    (found : s.records r = some record) (trusted : s.quiescent = true → ¬ record.phase.Ended) :
    Inv ({ s with stack := rest }.accept r record) := by
  have before := h.records r record found
  have started := before.started
  rw [top, List.countP_cons_of_pos (by simp [Task.isStartOf])] at started
  have noProvider : record.provider.isNone = true := by
    by_contra some
    rw [if_neg some] at started
    omega
  have noStart : rest.countP (Task.isStartOf r) = 0 := by
    rw [noProvider] at started
    simp only [if_true] at started
    omega
  have unsettled (settled : record.provider.isSettled = true) : False := by
    cases provider : record.provider with
    | none =>
      rw [provider] at settled
      cases settled
    | pending =>
      rw [provider] at settled
      cases settled
    | fulfilled value =>
      rw [provider] at noProvider
      cases noProvider
    | rejected =>
      rw [provider] at noProvider
      cases noProvider
  have popped := h.pop top fun _ => rfl
  have now := popped.records r record found
  refine Inv.pushPlain ?_ rfl
  refine popped.setRecord found ⟨id, fun settled => (unsettled settled).elim, id, id⟩ ?_
  refine { now with
    fulfilled := fun value settled => ?_
    inTime := fun never => by cases never
    started := ?_
    pending := fun _ => rfl
    quiescing := fun phase => ⟨(before.quiescing phase).1, rfl⟩
    quiet := fun quiescent ended => absurd ended (trusted quiescent) }
  · have same := (before.fulfilled value settled).1
    rw [same] at noProvider
    cases noProvider
  · apply Nat.le_of_eq
    show rest.countP _ + 1 = 1
    rw [noStart]

theorem Inv.endStart (h : Inv s) {rest : List Task} (top : s.stack = .start r :: rest)
    (found : s.records r = some record) : Inv ({ s with stack := rest }.rejectContractViolation r record) := by
  have popped := h.pop top fun _ => rfl
  refine Inv.pushPlain ?_ rfl
  exact popped.setRecord found ⟨id, id, id, id⟩ { popped.records r record found with }

theorem Inv.step (h : Inv s) {event : Event Value} (trusted : Trusted s event) (step : s.step event = some next) :
    Inv next := by
  cases event with
  | tick elapsed =>
    obtain rfl := Option.some.inj step
    exact h.tick elapsed
  | run =>
    simp only [State.step] at step
    split at step
    · cases step
    · rename_i task rest top
      exact h.run top step
  | invoke elapsed =>
    simp only [State.step] at step
    split at step
    · obtain rfl := Option.some.inj step
      exact h.invoke elapsed
    · cases step
  | stop =>
    simp only [State.step] at step
    split at step
    · obtain rfl := Option.some.inj step
      exact h.callStop
    · cases step
  | endStart promise =>
    simp only [State.step] at step
    split at step
    · rename_i r rest top
      obtain ⟨record, found, rfl⟩ := Option.map_eq_some_iff.mp step
      cases promise with
      | true => exact h.accept top found fun quiescent => trusted quiescent rfl r rest record top found
      | false => exact h.endStart top found
    · cases step
  | endAbort =>
    simp only [State.step] at step
    split at step
    · rename_i r rest top
      obtain rfl := Option.some.inj step
      exact h.pop top fun _ => rfl
    · cases step
  | endFatal succeeded =>
    simp only [State.step] at step
    split at step
    · rename_i r code quiescing rest top
      obtain ⟨record, found, rfl⟩ := Option.map_eq_some_iff.mp step
      have known : TaskOk s (.fatal r code quiescing) := h.tasks _ (by rw [top]; exact List.mem_cons_self)
      refine (h.pop top fun _ => rfl).endFatal found fun final => ?_
      obtain ⟨other, foundOther, breached⟩ := known final
      obtain rfl := Option.some.inj (found.symm.trans foundOther)
      exact breached
    · cases step
  | deadlineTimer r =>
    obtain ⟨record, found, step⟩ := Option.bind_eq_some_iff.mp step
    split at step
    · obtain rfl := Option.some.inj step
      refine Inv.pushPlain ?_ rfl
      refine h.setRecord found ⟨id, id, id, id⟩ ?_
      exact { h.records r record found with deadlineTimer := fun never => by cases never }
    · cases step
  | graceTimer r =>
    obtain ⟨record, found, step⟩ := Option.bind_eq_some_iff.mp step
    split at step
    · obtain rfl := Option.some.inj step
      refine Inv.pushPlain ?_ rfl
      refine h.setRecord found ⟨id, id, id, id⟩ ?_
      exact { h.records r record found with graceTimer := fun never => by cases never }
    · cases step
  | provider r value =>
    obtain ⟨record, found, step⟩ := Option.bind_eq_some_iff.mp step
    split at step
    · rename_i pending
      obtain rfl := Option.some.inj step
      have before := h.records r record found
      refine h.setRecord found ⟨id, fun never => ?_, id, id⟩ ?_
      · rw [pending] at never
        cases never
      · refine { before with
          fulfilled := fun value settled => ?_
          inTime := fun _ => ?_
          started := ?_
          pending := fun never => ?_
          quiet := fun _ _ never => ?_ }
        · have same := (before.fulfilled value settled).1
          rw [pending] at same
          cases same
        · dsimp only
          by_cases accepting : record.phase = .accepting
          · by_cases early : s.now < record.deadlineAt
            · exact .inl (decide_eq_true ⟨accepting, early⟩)
            · exact .inr (.inr (Nat.le_of_not_lt early))
          · exact .inr (.inl accepting)
        · have started := before.started
          rw [pending] at started
          cases value <;> exact started
        · cases value <;> cases never
        · cases value <;> cases never
    · cases step
  | observe r =>
    obtain ⟨record, found, step⟩ := Option.bind_eq_some_iff.mp step
    split at step
    · rename_i ready
      obtain rfl := Option.some.inj step
      exact h.observe found ready.2.1
    · cases step

end Code

/-! ### Trusted runs -/

/-- The runs in which every step is trusted. -/
def trustedRuns (Value : Type) (quiescent : Bool) (deadlineMilliseconds settlementGraceMilliseconds : Milliseconds) :
    Traces.System (State Value) (Event Value) where
  start s := s = .initial quiescent deadlineMilliseconds settlementGraceMilliseconds
  step s events next := ∃ event, s.step event = some next ∧ Trusted s event ∧ events = [event]

theorem inv_of_run {quiescent : Bool} {deadlineMilliseconds settlementGraceMilliseconds : Milliseconds}
    {trace : List (Event Value)} {s : State Value}
    (run : Traces.Run (trustedRuns Value quiescent deadlineMilliseconds settlementGraceMilliseconds) trace s) :
    Inv s := by
  refine @Traces.Run.invariant _ _ _ (fun _ s => Inv s) ?_ ?_ _ _ run
  · rintro _ rfl
    exact inv_initial quiescent deadlineMilliseconds settlementGraceMilliseconds
  · rintro _ _ _ _ h ⟨event, step, trusted, -⟩
    exact h.step trusted step

/-! ### Settled promises -/

section Kept

variable {s next last : State Value} {r : InvocationId} {record after : Record Value}

/-- A promise that has settled stays as it is. -/
structure Kept (s next : State Value) : Prop where
  promise : ∀ r record, s.records r = some record → record.promise ≠ .pending →
    ∃ after, next.records r = some after ∧ after.promise = record.promise
  stop : ∀ promise, s.stop = some promise → promise ≠ .pending → next.stop = some promise

theorem PromiseState.settle_of_settled {Outcome : Type} {promise settled : PromiseState Outcome}
    (h : promise ≠ .pending) : promise.settle settled = promise := by
  cases promise with
  | pending => exact absurd rfl h
  | fulfilled value => rfl
  | rejected code => rfl

theorem Kept.same (records : next.records = s.records) (stop : next.stop = s.stop) : Kept s next where
  promise r record found _ := ⟨record, by rw [records, found], rfl⟩
  stop promise stopped _ := by rw [stop, stopped]

theorem Kept.trans (h : Kept s next) (further : Kept next last) : Kept s last where
  promise r record found settled := by
    obtain ⟨middle, foundMiddle, same⟩ := h.promise r record found settled
    obtain ⟨after, foundAfter, equal⟩ := further.promise r middle foundMiddle (by rw [same]; exact settled)
    exact ⟨after, foundAfter, equal.trans same⟩
  stop promise stopped settled := further.stop promise (h.stop promise stopped settled) settled

theorem Kept.update (found : s.records r = some record)
    (records : next.records = Function.update s.records r (some after)) (stop : next.stop = s.stop)
    (promise : record.promise ≠ .pending → after.promise = record.promise) : Kept s next where
  promise other otherRecord foundOther settled := by
    rw [records]
    by_cases apart : other = r
    · subst apart
      obtain rfl := Option.some.inj (found.symm.trans foundOther)
      exact ⟨after, Function.update_self .., promise settled⟩
    · exact ⟨otherRecord, by rw [Function.update_of_ne apart, foundOther], rfl⟩
  stop promise stopped _ := by rw [stop, stopped]

theorem kept_maybeCompleteStop : Kept s s.maybeCompleteStop := by
  unfold State.maybeCompleteStop
  split
  · exact .same rfl rfl
  · rename_i stop stopped
    split
    · exact .same rfl rfl
    · have ended {promise settled : PromiseState Unit} (same : s.stop = some promise) (ready : promise ≠ .pending) :
          some (stop.settle settled) = some promise := by
        obtain rfl := Option.some.inj (stopped.symm.trans same)
        rw [PromiseState.settle_of_settled ready]
      split
      · exact ⟨fun r record found _ => ⟨record, found, rfl⟩, fun _ => ended⟩
      · exact ⟨fun r record found _ => ⟨record, found, rfl⟩, fun _ => ended⟩

theorem kept_finishRecord (found : s.records r = some record) (settled : PromiseState Value) :
    Kept s (s.finishRecord r { record with providerPending := false } settled) :=
  .update found rfl rfl PromiseState.settle_of_settled

theorem kept_breachRecord (found : s.records r = some record) (code : ErrorCode) :
    Kept s (s.breachRecord r record code) := by
  unfold State.breachRecord
  dsimp only
  split
  · exact .same rfl rfl
  · exact .update found rfl rfl fun _ => rfl

theorem kept_endFatal (found : s.records r = some record) (code : ErrorCode) (quiescing succeeded : Bool) :
    Kept s (s.endFatal r record code quiescing succeeded) := by
  unfold State.endFatal
  split
  · exact .update found rfl rfl fun _ => rfl
  · exact .update found rfl rfl PromiseState.settle_of_settled

theorem kept_beginGrace (found : s.records r = some record) (trigger : Trigger) (explicit : Option Milliseconds) :
    Kept s (s.beginGrace r record trigger explicit) := by
  unfold State.beginGrace
  split
  · exact .update found rfl rfl fun _ => rfl
  · exact .same rfl rfl

theorem kept_armDeadlineTimer (found : s.records r = some record) : Kept s (s.armDeadlineTimer r record) := by
  unfold State.armDeadlineTimer
  split
  · split
    · exact .same rfl rfl
    · exact .update found rfl rfl fun _ => rfl
  · exact .same rfl rfl

theorem kept_armGraceTimer (found : s.records r = some record) : Kept s (s.armGraceTimer r record) := by
  unfold State.armGraceTimer
  split
  · split
    · exact .same rfl rfl
    · exact .update found rfl rfl fun _ => rfl
  · exact .same rfl rfl

theorem kept_enforceGraceExpiry : Kept s (s.enforceGraceExpiry r record) := by
  unfold State.enforceGraceExpiry
  split
  · exact .same rfl rfl
  · exact .same rfl rfl

theorem kept_enforceElapsedBoundaries : Kept s (s.enforceElapsedBoundaries r record) := by
  unfold State.enforceElapsedBoundaries
  split
  · exact .same rfl rfl
  · exact kept_enforceGraceExpiry

theorem kept_settle (found : s.records r = some record) : Kept s (s.settle r record) := by
  unfold State.settle
  dsimp only
  split
  · exact .same rfl rfl
  · exact .same rfl rfl
  · exact kept_finishRecord found _
  · exact kept_finishRecord found _
  · exact kept_finishRecord found _
  · exact kept_finishRecord found _

theorem kept_observe (found : s.records r = some record) : Kept s (s.observe r record) := by
  have observed : Kept s (s.setRecord r { record with observed := true }) := .update found rfl rfl fun _ => rfl
  have foundObserved : (s.setRecord r { record with observed := true }).records r =
      some { record with observed := true } := Function.update_self ..
  unfold State.observe
  dsimp only
  split
  · exact observed
  · split
    · split
      · exact observed.trans (kept_settle foundObserved)
      · have elapsed : Kept (s.setRecord r { record with observed := true })
            ((s.setRecord r { record with observed := true }).push [.enforceGraceExpiry r, .settle r]) := .same rfl rfl
        have foundElapsed : ((s.setRecord r { record with observed := true }).push
            [.enforceGraceExpiry r, .settle r]).records r = some { record with observed := true } := foundObserved
        exact observed.trans (elapsed.trans (kept_beginGrace foundElapsed _ _))
    · exact observed.trans (.same rfl rfl)

theorem kept_run {task : Task} (step : s.run task = some next) : Kept s next := by
  cases task with
  | start r => cases step
  | abort r => cases step
  | fatal r code quiescing => cases step
  | invokeFatal r code quiescing =>
    obtain ⟨record, found, rfl⟩ := Option.map_eq_some_iff.mp step
    exact .update found rfl rfl fun _ => rfl
  | beginGrace r trigger explicit =>
    obtain ⟨record, found, rfl⟩ := Option.map_eq_some_iff.mp step
    exact kept_beginGrace found trigger explicit
  | armDeadlineTimer r =>
    obtain ⟨record, found, rfl⟩ := Option.map_eq_some_iff.mp step
    exact kept_armDeadlineTimer found
  | armGraceTimer r =>
    obtain ⟨record, found, rfl⟩ := Option.map_eq_some_iff.mp step
    exact kept_armGraceTimer found
  | abortGrace r =>
    obtain ⟨record, found, rfl⟩ := Option.map_eq_some_iff.mp step
    split
    · exact .update found rfl rfl fun _ => rfl
    · exact .same rfl rfl
  | enforceGraceExpiry r =>
    obtain ⟨record, found, rfl⟩ := Option.map_eq_some_iff.mp step
    exact kept_enforceGraceExpiry
  | enforceElapsedBoundaries r =>
    obtain ⟨record, found, rfl⟩ := Option.map_eq_some_iff.mp step
    exact kept_enforceElapsedBoundaries
  | breachRecord r code =>
    obtain ⟨record, found, rfl⟩ := Option.map_eq_some_iff.mp step
    exact kept_breachRecord found code
  | contractBreach r =>
    obtain ⟨record, found, rfl⟩ := Option.map_eq_some_iff.mp step
    split
    · exact .same rfl rfl
    · exact .same rfl rfl
  | settle r =>
    obtain ⟨record, found, rfl⟩ := Option.map_eq_some_iff.mp step
    exact kept_settle found
  | abortActive records expires =>
    cases records with
    | nil =>
      obtain rfl := Option.some.inj step
      exact .same rfl rfl
    | cons r records =>
      obtain rfl := Option.some.inj step
      exact .same rfl rfl
  | maybeCompleteStop =>
    obtain rfl := Option.some.inj step
    exact kept_maybeCompleteStop

theorem Inv.kept_invoke (h : Inv s) (elapsed : Milliseconds) : Kept s (s.invoke elapsed) := by
  -- the record of a new invocation takes the place of none
  have begun {next : State Value} {deadlineTimer : Bool} (records : next.records =
      Function.update s.records s.nextRecord (some (s.newRecord deadlineTimer))) (stop : next.stop = s.stop) :
      Kept s next := by
    constructor
    · intro r record found _
      refine ⟨record, ?_, rfl⟩
      rw [records, Function.update_of_ne, found]
      rintro rfl
      rw [h.fresh _ (Nat.le_refl _)] at found
      cases found
    · intro promise stopped _
      rw [stop, stopped]
  unfold State.invoke
  split
  · dsimp only
    split
    · exact begun rfl rfl
    · exact begun rfl rfl
  · exact .same rfl rfl

theorem kept_callStop : Kept s s.callStop := by
  unfold State.callStop
  split
  · exact .same rfl rfl
  · rename_i stop
    constructor
    · intro r record found _
      exact ⟨record, found, rfl⟩
    · intro promise stopped _
      rw [stop] at stopped
      cases stopped

theorem Inv.kept (h : Inv s) {event : Event Value} (step : s.step event = some next) : Kept s next := by
  cases event with
  | tick elapsed =>
    obtain rfl := Option.some.inj step
    exact .same rfl rfl
  | run =>
    simp only [State.step] at step
    split at step
    · cases step
    · rename_i task rest top
      have popped : Kept s { s with stack := rest } := .same rfl rfl
      exact popped.trans (kept_run step)
  | invoke elapsed =>
    simp only [State.step] at step
    split at step
    · obtain rfl := Option.some.inj step
      exact h.kept_invoke elapsed
    · cases step
  | stop =>
    simp only [State.step] at step
    split at step
    · obtain rfl := Option.some.inj step
      exact kept_callStop
    · cases step
  | endStart promise =>
    simp only [State.step] at step
    split at step
    · obtain ⟨record, found, rfl⟩ := Option.map_eq_some_iff.mp step
      cases promise with
      | true => exact .update found rfl rfl fun _ => rfl
      | false => exact .update found rfl rfl fun _ => rfl
    · cases step
  | endAbort =>
    simp only [State.step] at step
    split at step
    · obtain rfl := Option.some.inj step
      exact .same rfl rfl
    · cases step
  | endFatal succeeded =>
    simp only [State.step] at step
    split at step
    · rename_i r code quiescing rest top
      obtain ⟨record, found, rfl⟩ := Option.map_eq_some_iff.mp step
      have popped : Kept s { s with stack := rest } := .same rfl rfl
      have foundPopped : ({ s with stack := rest } : State Value).records r = some record := found
      exact popped.trans (kept_endFatal foundPopped code quiescing succeeded)
    · cases step
  | deadlineTimer r =>
    obtain ⟨record, found, step⟩ := Option.bind_eq_some_iff.mp step
    split at step
    · obtain rfl := Option.some.inj step
      exact .update found rfl rfl fun _ => rfl
    · cases step
  | graceTimer r =>
    obtain ⟨record, found, step⟩ := Option.bind_eq_some_iff.mp step
    split at step
    · obtain rfl := Option.some.inj step
      exact .update found rfl rfl fun _ => rfl
    · cases step
  | provider r value =>
    obtain ⟨record, found, step⟩ := Option.bind_eq_some_iff.mp step
    split at step
    · obtain rfl := Option.some.inj step
      exact .update found rfl rfl fun _ => rfl
    · cases step
  | observe r =>
    obtain ⟨record, found, step⟩ := Option.bind_eq_some_iff.mp step
    split at step
    · obtain rfl := Option.some.inj step
      exact kept_observe found
    · cases step

end Kept

/-! ### The laws -/

structure SettlementLaws (s : State Value) : Prop where
  /-- The promises of invocations and of `stop` settle at most once. -/
  once : ∀ event next, s.step event = some next → Kept s next
  fulfilled : ∀ r record value, s.records r = some record → record.promise = .fulfilled value →
    record.provider = .fulfilled value ∧ record.inTime = true
  /-- `onFatal` is called for those that breach, behind their breach, and at most once. -/
  fatal : ∀ r record, s.records r = some record → record.fatalCalls ≤ 1 ∧
    (record.fatalCalls = 1 → record.breach = true) ∧ (s.stack = [] → record.breach = true → record.fatalCalls = 1)
  start : s.lateStart = false
  stop : s.stop = some (.fulfilled ()) → ∀ r record, s.records r = some record → record.breach = false
  /-- A settled invocation has left the active set, with no timer armed. -/
  left : ∀ r record, s.records r = some record → record.promise ≠ .pending →
    record.active = false ∧ record.deadlineTimer = false ∧ record.graceTimer = false
  /-- The quiescent variant settles the promise of an invocation behind its provider. -/
  quiet : s.quiescent = true → ∀ r record, s.records r = some record → record.promise ≠ .pending →
    record.provider ≠ .pending
  /-- The quiescent variant settles the promise of `stop` behind every provider. -/
  quietStop : s.quiescent = true → ∀ promise, s.stop = some promise → promise ≠ .pending →
    ∀ r record, s.records r = some record → record.provider ≠ .pending

theorem Inv.laws {s : State Value} (h : Inv s) : SettlementLaws s where
  once _ _ step := h.kept step
  fulfilled r record value found settled := (h.records r record found).fulfilled value settled
  fatal r record found := by
    have count := (h.records r record found).fatal
    cases breach : record.breach with
    | true =>
      rw [breach, if_pos rfl] at count
      refine ⟨by omega, fun _ => rfl, fun empty _ => ?_⟩
      rw [empty] at count
      exact count
    | false =>
      rw [breach, if_neg Bool.false_ne_true] at count
      refine ⟨by omega, fun one => by omega, fun _ never => by cases never⟩
  start := h.late
  stop fulfilled r record found := by
    by_contra breach
    have failed := (h.records r record found).failure (eq_true_of_ne_false breach)
    rw [h.fulfilled fulfilled] at failed
    cases failed
  left r record found settled := by
    have ok := h.records r record found
    have ended := ok.promise settled
    refine ⟨?_, ?_, ?_⟩
    · by_contra active
      exact ok.active.mp (eq_true_of_ne_false active) ended
    · by_contra armed
      rw [ok.deadlineTimer (eq_true_of_ne_false armed)] at ended
      exact accepting_not_ended ended
    · by_contra armed
      rw [ok.graceTimer (eq_true_of_ne_false armed)] at ended
      exact draining_not_ended ended
  quiet quiescent r record found settled := by
    have ok := h.records r record found
    exact ok.quiet quiescent (ok.promise settled)
  quietStop quiescent promise stopped settled r record found := by
    have ok := h.records r record found
    have inactive := h.stopped promise stopped settled r record found
    have ended : record.phase.Ended := by
      by_contra live
      rw [ok.active.mpr live] at inactive
      cases inactive
    exact ok.quiet quiescent ended

/-- The laws hold in every state of every run in which no start callback returns a promise behind the breach
of its invocation, or in which providers do not have to settle. -/
theorem settlementLaws {quiescent : Bool} {deadlineMilliseconds settlementGraceMilliseconds : Milliseconds}
    {trace : List (Event Value)} {s : State Value}
    (run : Traces.Run (trustedRuns Value quiescent deadlineMilliseconds settlementGraceMilliseconds) trace s) :
    SettlementLaws s :=
  (inv_of_run run).laws

/-! ### Runs on fixed events -/

def runEvents (s : State Value) (events : List (Event Value)) : Option (State Value) := events.foldlM State.step s

/-- A trusted run goes on as a trusted run while no start callback returns a promise. -/
theorem trusted_of_runEvents {quiescent : Bool} {deadlineMilliseconds settlementGraceMilliseconds : Milliseconds}
    {trace events : List (Event Value)} {s next : State Value}
    (run : Traces.Run (trustedRuns Value quiescent deadlineMilliseconds settlementGraceMilliseconds) trace s)
    (ran : runEvents s events = some next) (none : Event.endStart true ∉ events) :
    Traces.Run (trustedRuns Value quiescent deadlineMilliseconds settlementGraceMilliseconds) (trace ++ events) next := by
  refine run.foldlM ?_ ran
  intro event inside s next step
  refine ⟨event, step, fun _ same => ?_, rfl⟩
  subst same
  exact absurd inside none

def invoked : State Nat := (State.initial true 10 5).invoke 0

theorem invoked_run : Traces.Run (trustedRuns Nat true 10 5) [.invoke 0] invoked := by
  have first : Traces.Run (trustedRuns Nat true 10 5) [] (.initial true 10 5) := .start rfl
  exact @trusted_of_runEvents _ _ _ _ _ [.invoke 0] _ _ first rfl (by simp)

theorem invoked_trusted : Trusted invoked (.endStart true) := by
  intro _ _ r rest record top found
  have same : [Task.start 0] = .start r :: rest := top
  cases same
  obtain rfl := Option.some.inj found
  exact accepting_not_ended

/-- The start callback returns a promise, and it is fulfilled in time. -/
def inTimeEvents : List (Event Nat) := [.run, .tick 3, .provider 0 (some 7), .observe 0, .run]

theorem settlementLaws_inTime : ∃ s record, runEvents invoked (.endStart true :: inTimeEvents) = some s ∧
    s.records 0 = some record ∧ record.promise = .fulfilled 7 ∧ record.active = false ∧ record.inTime = true := by
  obtain ⟨accepted, step⟩ : ∃ s, invoked.step (.endStart true) = some s := ⟨_, rfl⟩
  obtain ⟨s, ran⟩ : ∃ s, runEvents accepted inTimeEvents = some s := by
    obtain rfl := Option.some.inj step
    exact ⟨_, rfl⟩
  obtain ⟨record, found, fulfilled⟩ : ∃ record, s.records 0 = some record ∧ record.promise = .fulfilled 7 := by
    obtain rfl := Option.some.inj step
    obtain rfl := Option.some.inj ran
    exact ⟨_, rfl, rfl⟩
  have first := invoked_run.step ⟨.endStart true, step, invoked_trusted, rfl⟩
  have laws := settlementLaws (trusted_of_runEvents first ran (by simp [inTimeEvents]))
  refine ⟨s, record, ?_, found, fulfilled, ?_, (laws.fulfilled 0 record 7 found fulfilled).2⟩
  · rw [runEvents, List.foldlM_cons, step]
    exact ran
  · exact (laws.left 0 record found (by rw [fulfilled]; intro never; cases never)).1

/-- A start callback calls `stop`, and an abort listener takes the whole grace. The invocation breaches and
both promises are rejected. Then the start callback returns a promise. -/
def breachedStartEvents : List (Event Nat) :=
  [.invoke 0, .stop, .run, .run, .run, .run, .run, .tick 5, .endAbort, .run, .run, .run, .endFatal true, .run, .run,
    .run, .endStart true]

theorem settled_before_provider : ¬ ∀ quiescent deadlineMilliseconds settlementGraceMilliseconds trace (s : State Nat),
    Traces.Run (settlements Nat quiescent deadlineMilliseconds settlementGraceMilliseconds) trace s →
      SettlementLaws s := by
  intro laws
  obtain ⟨s, ran⟩ : ∃ s, runEvents (.initial true 10 5) breachedStartEvents = some s := ⟨_, rfl⟩
  have first : Traces.Run (settlements Nat true 10 5) [] (.initial true 10 5) := .start rfl
  have run := first.foldlM (fun event _ _ _ step => ⟨event, step, rfl⟩) ran
  obtain ⟨record, found, settled, pending⟩ : ∃ record, s.records 0 = some record ∧
      record.promise = .rejected .noSettlement ∧ record.provider = .pending := by
    obtain rfl := Option.some.inj ran
    exact ⟨_, rfl, rfl, rfl⟩
  have quiescent : s.quiescent = true := by
    obtain rfl := Option.some.inj ran
    rfl
  refine (laws true 10 5 _ s run).quiet quiescent 0 record found ?_ pending
  rw [settled]
  intro never
  cases never

end PortableCodex.Settlement
