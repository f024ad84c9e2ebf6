import PortableCodex.RecoveryScheduler.Scheduler

/-!
What holds of the scheduler in every state.

`Tables` is about the steps: all but the active one are settled. `Place` ties the place of the loop to the
state, the completion, the delay and the active step. Neither reads the queue, so a job that is queued
changes nothing (`goTo`), and the invariant `Inv` holds whatever the order of the jobs.
-/

namespace PortableCodex.RecoveryScheduler

open Traces

variable {Recovery : Type}

/-! ### Steps -/

structure Tables (world : World Recovery) : Prop where
  below : ∀ id, world.nextStep ≤ id → world.steps id = none
  settled : ∀ id step, world.steps id = some step → world.activeStep ≠ some id →
    step.outcome ≠ none ∧ step.listening = false
  active : ∀ id, world.activeStep = some id → ∃ step, world.steps id = some step ∧ step.outcome = none
  controller : world.activeController = world.activeStep
  callers : ∀ id ∈ world.callers, world.steps id ≠ none

/-- The loop can still see the failure of a step. -/
def Rejected (world : World Recovery) (id : StepId) : Prop := ∃ error, world.outcome id = some (.error error)

/-- The loop has not come to its end. -/
structure Loops (world : World Recovery) : Prop where
  completion : world.completion = .pending
  state : world.state = .running ∨ world.state = .stopping ∨ world.state = .failed
  failed : world.state = .failed ↔ world.terminalStepError ≠ none

/-- The loop has come to its end. -/
structure Ends (world : World Recovery) (outcome : Except ErrorCode Unit) : Prop where
  delay : world.activeDelayCancel = false
  active : world.activeStep = none
  state : world.state = .stopped ∧ outcome = .ok () ∨ world.state = .failed ∧ outcome = .error .outcomeUncertain

/-- The loop awaits a step. -/
structure Awaits (world : World Recovery) (id : StepId) (await : Await) : Prop where
  loops : Loops world
  delay : world.activeDelayCancel = false
  known : world.steps id ≠ none
  rejected : Rejected world id → world.state ≠ .running ∧ world.activeStep = none
  settled : await = .reacting ∨ await = .resuming → world.outcome id ≠ none

/-- What the place of the loop says of the rest. -/
def Place (world : World Recovery) : Prop :=
  match world.loop with
  | .none => world.activeDelayCancel = false ∧ world.activeStep = none ∧ world.nextStep = 0 ∧
      (world.state = .idle ∧ world.completion = .none ∧ world.terminalStepError = none ∨
        world.state = .stopped ∧ world.completion = .settled (.ok ()))
  | .step id await => Awaits world id await
  | .delay await => Loops world ∧ (await = .reacting ∨ await = .resuming → world.activeDelayCancel = false)
  | .last id await => Awaits world id await ∧ world.state ≠ .running ∧
      (world.activeStep = none ∨ world.activeStep = some id)
  | .returned outcome => world.completion = .pending ∧ Ends world outcome
  | .done => ∃ outcome, world.completion = .settled outcome ∧ Ends world outcome

structure Inv (world : World Recovery) : Prop where
  tables : Tables world
  delay : world.timer = world.activeDelayCancel
  place : Place world
  stopped : world.state = .stopping ∨ world.state = .stopped → world.stopCalled = true

section Steps

variable {world : World Recovery} {id : StepId} {step : Step Recovery}

@[simp] theorem outcome_setStep (world : World Recovery) (id other : StepId) (step : Step Recovery) :
    (world.setStep id step).outcome other = if other = id then step.outcome else world.outcome other := by
  show (Function.update world.steps id (some step) other).bind _ = _
  split
  · rename_i same
    rw [same, Function.update_self]
    rfl
  · rename_i distinct
    rw [Function.update_of_ne distinct]
    rfl

theorem steps_setStep (world : World Recovery) (id other : StepId) (step : Step Recovery) :
    (world.setStep id step).steps other = if other = id then some step else world.steps other := by
  show Function.update world.steps id (some step) other = _
  split
  · rename_i same
    rw [same, Function.update_self]
  · rename_i distinct
    exact Function.update_of_ne distinct _ _

/-- A step without an outcome is the active one. -/
theorem Tables.eq_active (h : Tables world) (found : world.steps id = some step) (open' : step.outcome = none) :
    world.activeStep = some id := by
  by_contra other
  exact (h.settled id step found other).1 open'

theorem Tables.outcome_active (h : Tables world) (active : world.activeStep = some id) : world.outcome id = none := by
  obtain ⟨step, found, open'⟩ := h.active id active
  unfold World.outcome
  rw [found]
  exact open'

theorem Tables.known (h : Tables world) (active : world.activeStep = some id) : world.steps id ≠ none := by
  obtain ⟨step, found, -⟩ := h.active id active
  rw [found]
  exact Option.some_ne_none _

/-- The active step gets on. -/
theorem Tables.setStep (h : Tables world) (active : world.activeStep = some id) (open' : step.outcome = none) :
    Tables (world.setStep id step) where
  below other late := by
    rw [steps_setStep, if_neg]
    · exact h.below other late
    · rintro rfl
      exact h.known active (h.below _ late)
  settled other found there inactive := by
    rw [steps_setStep] at there
    split at there
    · rename_i same
      exact absurd (same ▸ active) inactive
    · exact h.settled other found there inactive
  active other there := by
    obtain rfl := Option.some.inj (active.symm.trans there)
    refine ⟨step, ?_, open'⟩
    rw [steps_setStep, if_pos rfl]
  controller := h.controller
  callers other inside := by
    rw [steps_setStep]
    split
    · exact Option.some_ne_none _
    · exact h.callers other inside

/-- The active step is settled. -/
theorem Tables.settle (h : Tables world) (active : world.activeStep = some id) (settled : step.outcome ≠ none)
    (silent : step.listening = false) :
    Tables { world.setStep id step with activeController := none, activeStep := none } where
  below other late := by
    show (world.setStep id step).steps other = none
    rw [steps_setStep, if_neg]
    · exact h.below other late
    · rintro rfl
      exact h.known active (h.below _ late)
  settled other found there _ := by
    change (world.setStep id step).steps other = some found at there
    rw [steps_setStep] at there
    split at there
    · obtain rfl := Option.some.inj there
      exact ⟨settled, silent⟩
    · rename_i distinct
      refine h.settled other found there ?_
      intro same
      exact distinct (Option.some.inj (same.symm.trans active))
  active _ there := by cases there
  controller := rfl
  callers other inside := by
    show (world.setStep id step).steps other ≠ none
    rw [steps_setStep]
    split
    · exact Option.some_ne_none _
    · exact h.callers other inside

theorem Tables.beginStep (h : Tables world) (listening : Bool) :
    Tables (world.beginStep listening).1 ∧ (world.beginStep listening).1.activeStep = some (world.beginStep listening).2 ∧
      ∀ other, (world.beginStep listening).1.outcome other = world.outcome other := by
  unfold World.beginStep
  split
  · rename_i id active
    exact ⟨h, active, fun _ => rfl⟩
  · rename_i inactive
    have free : world.steps world.nextStep = none := h.below _ (Nat.le_refl _)
    refine ⟨⟨?_, ?_, ?_, rfl, ?_⟩, rfl, ?_⟩
    · intro other late
      show (world.setStep _ _).steps other = none
      rw [steps_setStep, if_neg (Nat.ne_of_gt late)]
      exact h.below other (Nat.le_of_succ_le late)
    · intro other found there distinct
      change (world.setStep _ _).steps other = some found at there
      rw [steps_setStep, if_neg] at there
      · exact h.settled other found there (by rw [inactive]; exact nofun)
      · rintro rfl
        exact distinct rfl
    · intro other same
      obtain rfl := Option.some.inj same
      refine ⟨{ phase := .calling, listening }, ?_, rfl⟩
      show (world.setStep _ _).steps _ = _
      rw [steps_setStep, if_pos rfl]
    · intro other inside
      show (world.setStep _ _).steps other ≠ none
      rw [steps_setStep]
      split
      · exact Option.some_ne_none _
      · exact h.callers other inside
    · intro other
      show (world.setStep _ _).outcome other = _
      rw [outcome_setStep]
      split
      · rename_i same
        unfold World.outcome
        rw [same, free]
        rfl
      · rfl

/-- The parts of a world that `Tables` reads. -/
theorem Tables.frame {next : World Recovery} (h : Tables world) (steps : next.steps = world.steps)
    (active : next.activeStep = world.activeStep) (controller : next.activeController = world.activeController)
    (count : next.nextStep = world.nextStep) (callers : next.callers = world.callers) : Tables next := by
  constructor
  · rw [steps, count]
    exact h.below
  · rw [steps, active]
    exact h.settled
  · rw [steps, active]
    exact h.active
  · rw [controller, active]
    exact h.controller
  · rw [steps, callers]
    exact h.callers

end Steps

/-! ### Frames -/

/-- The loop cannot tell the worlds apart. -/
structure Frame (world next : World Recovery) : Prop where
  loop : next.loop = world.loop
  state : next.state = world.state
  completion : next.completion = world.completion
  delay : next.activeDelayCancel = world.activeDelayCancel
  terminal : next.terminalStepError = world.terminalStepError
  active : next.activeStep = world.activeStep
  count : next.nextStep = world.nextStep
  outcome : ∀ id, next.outcome id = world.outcome id
  known : ∀ id, world.steps id ≠ none → next.steps id ≠ none

section Frames

variable {world next : World Recovery} {id : StepId} {await : Await}

theorem Loops.frame (h : Loops world) (state : next.state = world.state) (completion : next.completion = world.completion)
    (terminal : next.terminalStepError = world.terminalStepError) : Loops next := by
  constructor
  · rw [completion]
    exact h.completion
  · rw [state]
    exact h.state
  · rw [state, terminal]
    exact h.failed

theorem Ends.frame {outcome : Except ErrorCode Unit} (h : Ends world outcome) (frame : Frame world next) :
    Ends next outcome := by
  constructor
  · rw [frame.delay]
    exact h.delay
  · rw [frame.active]
    exact h.active
  · rw [frame.state]
    exact h.state

theorem Awaits.frame (h : Awaits world id await) (frame : Frame world next) : Awaits next id await := by
  constructor
  · exact h.loops.frame frame.state frame.completion frame.terminal
  · rw [frame.delay]
    exact h.delay
  · exact frame.known id h.known
  · rintro ⟨error, rejected⟩
    rw [frame.outcome] at rejected
    rw [frame.state, frame.active]
    exact h.rejected ⟨error, rejected⟩
  · rw [frame.outcome]
    exact h.settled

theorem Place.frame (h : Place world) (frame : Frame world next) : Place next := by
  unfold Place at h ⊢
  rw [frame.loop]
  cases loop : world.loop with
  | none =>
    simp only [loop] at h ⊢
    rw [frame.delay, frame.active, frame.count, frame.state, frame.completion, frame.terminal]
    exact h
  | step id await =>
    simp only [loop] at h ⊢
    exact h.frame frame
  | delay await =>
    simp only [loop] at h ⊢
    rw [frame.delay]
    exact ⟨h.1.frame frame.state frame.completion frame.terminal, h.2⟩
  | last id await =>
    simp only [loop] at h ⊢
    rw [frame.state, frame.active]
    exact ⟨h.1.frame frame, h.2⟩
  | returned outcome =>
    simp only [loop] at h ⊢
    rw [frame.completion]
    exact ⟨h.1, h.2.frame frame⟩
  | done =>
    simp only [loop] at h ⊢
    rw [frame.completion]
    obtain ⟨outcome, completion, ends⟩ := h
    exact ⟨outcome, completion, ends.frame frame⟩

theorem Inv.queue (h : Inv world) (queue : List Job) : Inv { world with queue } where
  tables := h.tables.frame rfl rfl rfl rfl rfl
  delay := h.delay
  place := h.place.frame ⟨rfl, rfl, rfl, rfl, rfl, rfl, rfl, fun _ => rfl, fun _ => id⟩
  stopped := h.stopped

/-- A job of the loop is queued. -/
theorem Inv.goTo {loop : Loop} (h : Inv { world with loop }) : Inv (world.goTo loop) := h.queue _

/-- The loop reacts to the end of the delay that it awaits. -/
def finished (cancelled : Bool) (loop : Loop) : Loop :=
  if cancelled = true ∧ loop = .delay .waiting then .delay .reacting else loop

theorem finished_false (loop : Loop) : finished false loop = loop := if_neg fun both => nomatch both.1

theorem finished_delay (cancelled : Bool) (await : Await) : ∃ later, finished cancelled (.delay await) = .delay later := by
  unfold finished
  split
  · exact ⟨_, rfl⟩
  · exact ⟨_, rfl⟩

theorem finished_step (cancelled : Bool) (id : StepId) (await : Await) :
    finished cancelled (.step id await) = .step id await := if_neg fun both => nomatch both.2

theorem finished_last (cancelled : Bool) (id : StepId) (await : Await) :
    finished cancelled (.last id await) = .last id await := if_neg fun both => nomatch both.2

theorem finish_eq (world : World Recovery) (delay : world.timer = world.activeDelayCancel) : ∃ queue, world.finish =
    { world with
      timer := false
      activeDelayCancel := false
      loop := finished world.activeDelayCancel world.loop
      queue } := by
  unfold World.finish finished
  cases cancel : world.activeDelayCancel with
  | false =>
    rw [cancel] at delay
    refine ⟨world.queue, ?_⟩
    cases world
    simp_all
  | true =>
    by_cases waits : world.loop = .delay .waiting
    · refine ⟨world.queue ++ [.loop], ?_⟩
      simp [waits, World.goTo]
    · refine ⟨world.queue, ?_⟩
      simp [waits]

theorem Inv.finish (h : Inv world) : Inv world.finish := by
  obtain ⟨queue, same⟩ := finish_eq world h.delay
  rw [same]
  refine ⟨h.tables.frame rfl rfl rfl rfl rfl, rfl, ?_, h.stopped⟩
  have place := h.place
  cases cancel : world.activeDelayCancel with
  | false =>
    refine place.frame ⟨?_, rfl, rfl, cancel.symm, rfl, rfl, rfl, fun _ => rfl, fun _ => id⟩
    exact finished_false world.loop
  | true =>
    unfold Place at place ⊢
    cases loop : world.loop with
    | none =>
      rw [loop, cancel] at place
      cases place.1
    | step id await =>
      rw [loop] at place
      rw [place.delay] at cancel
      cases cancel
    | delay await =>
      rw [loop] at place
      cases await <;> exact ⟨place.1.frame rfl rfl rfl, fun _ => rfl⟩
    | last id await =>
      rw [loop] at place
      rw [place.1.delay] at cancel
      cases cancel
    | returned outcome =>
      rw [loop] at place
      rw [place.2.delay] at cancel
      cases cancel
    | done =>
      rw [loop] at place
      obtain ⟨outcome, -, ends⟩ := place
      rw [ends.delay] at cancel
      cases cancel

end Frames

/-! ### The loop -/

/-- The loop is between two awaits. -/
structure Ready (world : World Recovery) : Prop where
  tables : Tables world
  timer : world.timer = false
  delay : world.activeDelayCancel = false
  loops : Loops world
  stopped : world.state = .stopping ∨ world.state = .stopped → world.stopCalled = true

namespace Ready

variable {world : World Recovery} {id : StepId}

theorem throwLoop (h : Ready world) (inactive : world.activeStep = none) : Inv world.throwLoop := by
  unfold World.throwLoop
  apply Inv.goTo
  have still : { world with state := State.failed }.finish = { world with state := .failed } := by
    unfold World.finish
    rw [if_neg]
    rw [h.delay]
    exact Bool.false_ne_true
  rw [still]
  refine ⟨h.tables.frame rfl rfl rfl rfl rfl, ?_, ?_, ?_⟩
  · exact h.timer.trans h.delay.symm
  · exact ⟨h.loops.completion, h.delay, inactive, .inr ⟨rfl, rfl⟩⟩
  · rintro (never | never) <;> cases never

theorem finishLoop (h : Ready world) (inactive : world.activeStep = none) (ended : world.state ≠ .running) :
    Inv world.finishLoop := by
  unfold World.finishLoop
  split
  · exact h.throwLoop inactive
  · rename_i none
    have stopping : world.state = .stopping := by
      rcases h.loops.state with running | stopping | failed
      · exact absurd running ended
      · exact stopping
      · exact absurd (h.loops.failed.mp failed) none
    have still : { world with state := State.stopped }.finish = { world with state := .stopped } := by
      unfold World.finish
      rw [if_neg]
      rw [h.delay]
      exact Bool.false_ne_true
    simp only [if_pos stopping]
    rw [still]
    apply Inv.goTo
    refine ⟨h.tables.frame rfl rfl rfl rfl rfl, ?_, ?_, ?_⟩
    · exact h.timer.trans h.delay.symm
    · exact ⟨h.loops.completion, h.delay, inactive, .inl ⟨rfl, rfl⟩⟩
    · exact fun _ => h.stopped (.inl stopping)

theorem leaveLoop (h : Ready world) (ended : world.state ≠ .running) : Inv world.leaveLoop := by
  unfold World.leaveLoop
  split
  · rename_i id active
    apply Inv.goTo
    refine ⟨h.tables.frame rfl rfl rfl rfl rfl, ?_, ?_, h.stopped⟩
    · exact h.timer.trans h.delay.symm
    · refine ⟨⟨h.loops.frame rfl rfl rfl, h.delay, h.tables.known active, ?_, ?_⟩, ended, .inr active⟩
      · rintro ⟨error, rejected⟩
        have open' := h.tables.outcome_active active
        exact absurd (open'.symm.trans rejected) nofun
      · rintro (never | never) <;> cases never
  · rename_i inactive
    exact h.finishLoop inactive ended

theorem enterLoop (h : Ready world) : Inv world.enterLoop := by
  unfold World.enterLoop
  split
  · rename_i running
    obtain ⟨tables, active, -⟩ := h.tables.beginStep false
    have rest : ∃ steps activeStep activeController nextStep, (world.beginStep false).1 =
        { world with steps, activeStep, activeController, nextStep } := by
      unfold World.beginStep
      split
      · exact ⟨_, _, _, _, rfl⟩
      · exact ⟨_, _, _, _, rfl⟩
    obtain ⟨steps, activeStep, activeController, nextStep, same⟩ := rest
    dsimp only
    apply Inv.goTo
    generalize (world.beginStep false).2 = id at active ⊢
    rw [same] at tables active ⊢
    refine ⟨tables.frame rfl rfl rfl rfl rfl, ?_, ?_, h.stopped⟩
    · exact h.timer.trans h.delay.symm
    · refine ⟨h.loops.frame rfl rfl rfl, h.delay, tables.known active, ?_, ?_⟩
      · rintro ⟨error, rejected⟩
        have open' := tables.outcome_active active
        exact absurd (open'.symm.trans rejected) nofun
      · rintro (never | never) <;> cases never
  · rename_i ended
    exact h.leaveLoop ended

theorem waitForInterval (h : Ready world) : Inv world.waitForInterval := by
  unfold World.waitForInterval
  apply Inv.goTo
  refine ⟨h.tables.frame rfl rfl rfl rfl rfl, rfl, ?_, h.stopped⟩
  refine ⟨h.loops.frame rfl rfl rfl, ?_⟩
  rintro (never | never) <;> cases never

end Ready

section Loop

variable {world : World Recovery} {id : StepId} {await : Await}

theorem Inv.ready (h : Inv world) (loops : Loops world) (delay : world.activeDelayCancel = false) : Ready world where
  tables := h.tables
  timer := h.delay.trans delay
  delay := delay
  loops := loops
  stopped := h.stopped

/-- The loop at another place of the same `await`. -/
theorem Inv.moveTo (h : Inv world) {loop : Loop} (place : Place { world with loop }) : Inv { world with loop } where
  tables := h.tables.frame rfl rfl rfl rfl rfl
  delay := h.delay
  place := place
  stopped := h.stopped

theorem Awaits.moveTo {next : Await} (h : Awaits world id await) (loop : Loop)
    (settled : next = .reacting ∨ next = .resuming → world.outcome id ≠ none) :
    Awaits { world with loop } id next where
  loops := h.loops.frame rfl rfl rfl
  delay := h.delay
  known := h.known
  rejected := h.rejected
  settled := settled

/-- The job of an `await`, where each place of it keeps the invariant. -/
theorem Inv.advance (h : Inv world) {place : Await → Loop} (here : world.loop = place await) {resumed : World Recovery}
    (moves : ∀ next, (next = .waiting ∨ world.awaited (place .joining) = true ∨ await = .reacting) →
      Inv { world with loop := place next })
    (resumes : await = .resuming → Inv resumed) : Inv (world.advance place await resumed) := by
  unfold World.advance
  cases await with
  | joining =>
    dsimp only
    split
    · rename_i awaited
      exact (moves .reacting (.inr (.inl awaited))).goTo
    · exact moves .waiting (.inl rfl)
  | waiting => exact h
  | reacting => exact (moves .resuming (.inr (.inr rfl))).goTo
  | resuming => exact resumes rfl

theorem outcome_of_awaited (loop : (world.outcome id).isSome = true) : world.outcome id ≠ none := by
  intro none
  rw [none] at loop
  cases loop

/-- The loop resumes after a step. -/
theorem Inv.resumeStep (h : Inv world) (awaits : Awaits world id .resuming)
    (inactive : Rejected world id → world.activeStep = none) {next : World Recovery}
    (resumes : Ready world → Inv next) : Inv (world.resumeStep id next) := by
  have ready := h.ready awaits.loops awaits.delay
  unfold World.resumeStep
  split
  · exact resumes ready
  · rename_i rejected
    apply ready.throwLoop
    apply inactive
    cases outcome : world.outcome id with
    | none => exact absurd outcome (awaits.settled (.inr rfl))
    | some result =>
      cases result with
      | error error => exact ⟨error, outcome⟩
      | ok receipt => exact absurd outcome (rejected receipt)

theorem Inv.loopJob (h : Inv world) : Inv world.loopJob := by
  have place := h.place
  unfold Place at place
  unfold World.loopJob
  cases loop : world.loop with
  | none => exact h
  | done => exact h
  | returned outcome =>
    rw [loop] at place
    refine ⟨h.tables.frame rfl rfl rfl rfl rfl, h.delay, ?_, h.stopped⟩
    exact ⟨outcome, rfl, place.2.delay, place.2.active, place.2.state⟩
  | step id await =>
    rw [loop] at place
    dsimp only at place ⊢
    refine h.advance loop ?_ ?_
    · intro next possible
      refine h.moveTo (place.moveTo _ ?_)
      rintro settles
      rcases possible with rfl | awaited | rfl
      · rcases settles with never | never <;> cases never
      · exact outcome_of_awaited awaited
      · exact place.settled (.inl rfl)
    · rintro rfl
      refine h.resumeStep place (fun rejected => (place.rejected rejected).2) fun ready => ?_
      split
      · exact ready.waitForInterval
      · rename_i ended
        exact ready.leaveLoop ended
  | delay await =>
    rw [loop] at place
    dsimp only at place ⊢
    refine h.advance loop ?_ ?_
    · intro next possible
      refine h.moveTo ⟨place.1.frame rfl rfl rfl, ?_⟩
      rintro settles
      rcases possible with rfl | awaited | rfl
      · rcases settles with never | never <;> cases never
      · exact (Bool.not_eq_true' _).mp awaited
      · exact place.2 (.inl rfl)
    · rintro rfl
      exact (h.ready place.1 (place.2 (.inr rfl))).enterLoop
  | last id await =>
    rw [loop] at place
    dsimp only at place ⊢
    obtain ⟨awaits, ended, active⟩ := place
    refine h.advance loop ?_ ?_
    · intro next possible
      refine h.moveTo ⟨awaits.moveTo _ ?_, ended, active⟩
      rintro settles
      rcases possible with rfl | awaited | rfl
      · rcases settles with never | never <;> cases never
      · exact outcome_of_awaited awaited
      · exact awaits.settled (.inl rfl)
    · rintro rfl
      have inactive : world.activeStep = none := by
        rcases active with none | same
        · exact none
        · exact absurd (h.tables.outcome_active same) (awaits.settled (.inr rfl))
      exact h.resumeStep awaits (fun _ => inactive) fun ready => ready.finishLoop inactive ended

end Loop

/-! ### The active step -/

/-- What the end of a step changes for the loop. -/
structure Settles (world next : World Recovery) (id : StepId) (accepted : Bool) : Prop where
  loops : Loops world → Loops next
  ended : world.state ≠ .running → next.state ≠ .running
  failed : accepted = false → next.state ≠ .running
  delay : world.activeDelayCancel = false → next.activeDelayCancel = false
  active : next.activeStep = none
  own : ∃ outcome, next.outcome id = some outcome ∧ (accepted = true → ∃ receipt, outcome = .ok receipt)
  outcome : ∀ other, other ≠ id → next.outcome other = world.outcome other
  known : ∀ other, world.steps other ≠ none → next.steps other ≠ none

section Settling

variable {world next : World Recovery} {id other : StepId} {await : Await} {accepted : Bool}

theorem Awaits.settle (h : Awaits world other await) (settles : Settles world next id accepted) {later : Await}
    (moved : later = await ∨ other = id) : Awaits next other later := by
  constructor
  · exact settles.loops h.loops
  · exact settles.delay h.delay
  · exact settles.known other h.known
  · rintro ⟨error, rejected⟩
    refine ⟨?_, settles.active⟩
    by_cases same : other = id
    · subst same
      cases accepted with
      | false => exact settles.failed rfl
      | true =>
        obtain ⟨outcome, own, fulfilled⟩ := settles.own
        obtain ⟨receipt, rfl⟩ := fulfilled rfl
        exact absurd (own.symm.trans rejected) nofun
    · rw [settles.outcome other same] at rejected
      exact settles.ended (h.rejected ⟨error, rejected⟩).1
  · intro reached
    by_cases same : other = id
    · obtain ⟨outcome, own, -⟩ := settles.own
      rw [same, own]
      exact Option.some_ne_none _
    · rcases moved with rfl | never
      · rw [settles.outcome other same]
        exact h.settled reached
      · exact absurd never same

/-- The loop reacts to the end of the step that it awaits. -/
def reacted (id : StepId) (loop : Loop) : Loop :=
  if loop = .step id .waiting then .step id .reacting
  else if loop = .last id .waiting then .last id .reacting else loop

theorem reacted_delay (id : StepId) (await : Await) : reacted id (.delay await) = .delay await := by
  unfold reacted
  rw [if_neg nofun, if_neg nofun]

theorem reacted_step (id other : StepId) (await : Await) :
    ∃ later, reacted id (.step other await) = .step other later ∧ (later = await ∨ other = id) := by
  unfold reacted
  split
  · rename_i same
    obtain ⟨rfl, -⟩ := Loop.step.inj same
    exact ⟨.reacting, rfl, .inr rfl⟩
  · rw [if_neg nofun]
    exact ⟨await, rfl, .inl rfl⟩

theorem reacted_last (id other : StepId) (await : Await) :
    ∃ later, reacted id (.last other await) = .last other later ∧ (later = await ∨ other = id) := by
  unfold reacted
  rw [if_neg nofun]
  split
  · rename_i same
    obtain ⟨rfl, -⟩ := Loop.last.inj same
    exact ⟨.reacting, rfl, .inr rfl⟩
  · exact ⟨await, rfl, .inl rfl⟩

theorem settle_eq (world : World Recovery) (id : StepId) (raw : Raw Recovery) (accepted : Bool) :
    ∃ queue, world.settle id raw accepted =
      { world.setStep id { phase := .settled raw accepted, listening := false } with
        loop := reacted id world.loop
        queue } := by
  unfold World.settle reacted
  dsimp only
  split
  · exact ⟨_, rfl⟩
  · split
    · exact ⟨_, rfl⟩
    · exact ⟨world.queue, rfl⟩

/-- The place of the loop after the end of a step. -/
theorem Place.settle (h : Place world) (active : world.activeStep = some id) (settles : Settles world next id accepted)
    (delay : ∀ await, world.loop = .delay await →
      next.loop = .delay await ∧ next.activeDelayCancel = world.activeDelayCancel ∨
        (∃ later, next.loop = .delay later) ∧ next.activeDelayCancel = false)
    (step : ∀ other await, world.loop = .step other await →
      ∃ later, next.loop = .step other later ∧ (later = await ∨ other = id))
    (last : ∀ other await, world.loop = .last other await →
      ∃ later, next.loop = .last other later ∧ (later = await ∨ other = id)) : Place next := by
  unfold Place at h
  cases loop : world.loop with
  | none =>
    rw [loop] at h
    rw [h.2.1] at active
    cases active
  | step other await =>
    rw [loop] at h
    obtain ⟨later, there, moved⟩ := step other await loop
    unfold Place
    rw [there]
    exact Awaits.settle h settles moved
  | delay await =>
    rw [loop] at h
    unfold Place
    rcases delay await loop with ⟨there, same⟩ | ⟨⟨later, there⟩, none⟩
    · rw [there]
      refine ⟨settles.loops h.1, ?_⟩
      rw [same]
      exact h.2
    · rw [there]
      exact ⟨settles.loops h.1, fun _ => none⟩
  | last other await =>
    rw [loop] at h
    obtain ⟨later, there, moved⟩ := last other await loop
    unfold Place
    rw [there]
    exact ⟨h.1.settle settles moved, settles.ended h.2.1, .inl settles.active⟩
  | returned outcome =>
    rw [loop] at h
    rw [h.2.active] at active
    cases active
  | done =>
    rw [loop] at h
    obtain ⟨outcome, -, ends⟩ := h
    rw [ends.active] at active
    cases active

theorem outcome_settled (raw : Raw Recovery) (accepted listening : Bool) :
    ∃ outcome, (Step.mk (.settled raw accepted) listening).outcome = some outcome ∧
      (accepted = true → ∃ receipt, outcome = .ok receipt) := by
  cases accepted with
  | true => exact ⟨_, rfl, fun _ => ⟨_, rfl⟩⟩
  | false => exact ⟨_, rfl, nofun⟩

/-- A step is settled and nothing else is recorded. -/
theorem Inv.settle (h : Inv world) (active : world.activeStep = some id) (raw : Raw Recovery)
    (recorded : accepted = true ∨ world.state ≠ .running) :
    Inv ({ world with activeController := none, activeStep := none }.settle id raw accepted) := by
  obtain ⟨queue, same⟩ := settle_eq { world with activeController := none, activeStep := none } id raw accepted
  rw [same]
  have settled := outcome_settled raw accepted false
  refine ⟨?_, h.delay, ?_, h.stopped⟩
  · have done : (Step.mk (.settled raw accepted) false).outcome ≠ none := by
      obtain ⟨outcome, is, -⟩ := settled
      rw [is]
      exact Option.some_ne_none _
    exact (h.tables.settle active done rfl).frame rfl rfl rfl rfl rfl
  · refine @Place.settle Recovery world _ id accepted h.place active ?_ ?_ ?_ ?_
    · refine ⟨fun loops => loops.frame rfl rfl rfl, fun ended => ended, ?_, fun free => free, rfl, ?_, ?_, ?_⟩
      · rintro rfl
        rcases recorded with never | ended
        · cases never
        · exact ended
      · obtain ⟨outcome, is, fulfilled⟩ := settled
        exact ⟨outcome, (outcome_setStep _ _ _ _).trans ((if_pos rfl).trans is), fulfilled⟩
      · intro other distinct
        exact (outcome_setStep _ _ _ _).trans (if_neg distinct)
      · intro other known
        show (world.setStep _ _).steps other ≠ none
        rw [steps_setStep]
        split
        · exact Option.some_ne_none _
        · exact known
    · intro await loop
      refine .inl ⟨?_, rfl⟩
      show reacted id world.loop = _
      rw [loop]
      exact reacted_delay id await
    · intro other await loop
      show ∃ later, reacted id world.loop = _ ∧ _
      rw [loop]
      exact reacted_step id other await
    · intro other await loop
      show ∃ later, reacted id world.loop = _ ∧ _
      rw [loop]
      exact reacted_last id other await

/-- A step is rejected and its failure is recorded. -/
theorem Inv.fail (h : Inv world) (active : world.activeStep = some id) (raw : Raw Recovery) : Inv ({ { world with activeController := none, activeStep := none } with
      state := State.failed, terminalStepError := some ErrorCode.outcomeUncertain }.finish.settle id raw false) := by
  obtain ⟨queue, cut⟩ := finish_eq { { world with activeController := none, activeStep := none } with
    state := State.failed, terminalStepError := some ErrorCode.outcomeUncertain } h.delay
  rw [cut]
  obtain ⟨last, same⟩ := settle_eq
    { { { world with activeController := none, activeStep := none } with
          state := State.failed, terminalStepError := some ErrorCode.outcomeUncertain } with
      timer := false
      activeDelayCancel := false
      loop := finished world.activeDelayCancel world.loop
      queue } id raw false
  rw [same]
  refine ⟨?_, rfl, ?_, ?_⟩
  · have done : (Step.mk (.settled raw false) false).outcome ≠ none := Option.some_ne_none _
    exact (h.tables.settle active done rfl).frame rfl rfl rfl rfl rfl
  · refine @Place.settle Recovery world _ id false h.place active ?_ ?_ ?_ ?_
    · refine ⟨fun loops => ⟨loops.completion, .inr (.inr rfl), ?_⟩, fun _ => nofun, fun _ => nofun, fun _ => rfl, rfl,
        ?_, ?_, ?_⟩
      · exact ⟨fun _ => Option.some_ne_none _, fun _ => rfl⟩
      · obtain ⟨outcome, is, fulfilled⟩ := outcome_settled raw false false
        exact ⟨outcome, (outcome_setStep _ _ _ _).trans ((if_pos rfl).trans is), fulfilled⟩
      · intro other distinct
        exact (outcome_setStep _ _ _ _).trans (if_neg distinct)
      · intro other known
        show (world.setStep _ _).steps other ≠ none
        rw [steps_setStep]
        split
        · exact Option.some_ne_none _
        · exact known
    · intro await loop
      refine .inr ⟨?_, rfl⟩
      show ∃ later, reacted id (finished world.activeDelayCancel world.loop) = .delay later
      obtain ⟨later, same⟩ := finished_delay world.activeDelayCancel await
      rw [loop, same]
      exact ⟨later, reacted_delay id later⟩
    · intro other await loop
      show ∃ later, reacted id (finished world.activeDelayCancel world.loop) = .step other later ∧ _
      rw [loop, finished_step]
      exact reacted_step id other await
    · intro other await loop
      show ∃ later, reacted id (finished world.activeDelayCancel world.loop) = .last other later ∧ _
      rw [loop, finished_last]
      exact reacted_last id other await
  · rintro (never | never) <;> cases never

theorem Inv.settleStep (h : Inv world) (active : world.activeStep = some id) (raw : Raw Recovery) (accepted : Bool) :
    Inv (world.settleStep id raw accepted) := by
  unfold World.settleStep
  dsimp only
  split
  · rename_i fulfilled
    exact h.settle active raw (.inl fulfilled)
  · rename_i rejected
    rw [Bool.not_eq_true] at rejected
    subst rejected
    unfold World.recordStepFailure
    split
    · exact h.fail active raw
    · rename_i ended
      exact h.settle active raw (.inr ended)

/-- The active step gets on without an outcome. -/
theorem Inv.setStep (h : Inv world) {step : Step Recovery} (active : world.activeStep = some id)
    (pending : step.outcome = none) : Inv (world.setStep id step) := by
  refine ⟨h.tables.setStep active pending, h.delay, ?_, h.stopped⟩
  refine h.place.frame ⟨rfl, rfl, rfl, rfl, rfl, rfl, rfl, ?_, ?_⟩
  · intro other
    rw [outcome_setStep]
    split
    · rename_i same
      rw [pending, same, h.tables.outcome_active active]
    · rfl
  · intro other known
    rw [steps_setStep]
    split
    · exact Option.some_ne_none _
    · exact known

theorem Inv.stepJob (h : Inv world) (id : StepId) : Inv (world.stepJob id) := by
  unfold World.stepJob
  split
  · rename_i raw accepted jobs listening found
    exact (h.setStep (h.tables.eq_active found rfl) rfl).queue _
  · rename_i raw accepted listening found
    exact h.settleStep (h.tables.eq_active found rfl) raw accepted
  · exact h

end Settling

/-! ### Events -/

section Events

variable {world next : World Recovery}

theorem inv_initial : Inv (World.initial : World Recovery) where
  tables := ⟨fun _ _ => rfl, nofun, nofun, rfl, nofun⟩
  delay := rfl
  place := ⟨rfl, rfl, rfl, .inl ⟨rfl, rfl, rfl⟩⟩
  stopped := by rintro (never | never) <;> cases never

theorem Place.of_step {id : StepId} {await : Await} (loop : world.loop = .step id await) (awaits : Awaits world id await) :
    Place world := by
  unfold Place
  rw [loop]
  exact awaits

theorem Place.of_delay {await : Await} (loop : world.loop = .delay await) (loops : Loops world)
    (delay : await = .reacting ∨ await = .resuming → world.activeDelayCancel = false) : Place world := by
  unfold Place
  rw [loop]
  exact ⟨loops, delay⟩

/-- An idle scheduler has nothing but its state. -/
theorem Inv.idle (h : Inv world) (idle : world.state = .idle) :
    world.loop = .none ∧ world.activeDelayCancel = false ∧ world.activeStep = none ∧ world.nextStep = 0 ∧
      world.terminalStepError = none := by
  have place := h.place
  unfold Place at place
  cases loop : world.loop with
  | none =>
    rw [loop] at place
    obtain ⟨delay, inactive, count, ⟨-, -, terminal⟩ | ⟨stopped, -⟩⟩ := place
    · exact ⟨rfl, delay, inactive, count, terminal⟩
    · rw [idle] at stopped
      cases stopped
  | step id await =>
    rw [loop] at place
    rcases place.loops.state with state | state | state <;> rw [idle] at state <;> cases state
  | delay await =>
    rw [loop] at place
    rcases place.1.state with state | state | state <;> rw [idle] at state <;> cases state
  | last id await =>
    rw [loop] at place
    rcases place.1.loops.state with state | state | state <;> rw [idle] at state <;> cases state
  | returned outcome =>
    rw [loop] at place
    rcases place.2.state with ⟨state, -⟩ | ⟨state, -⟩ <;> rw [idle] at state <;> cases state
  | done =>
    rw [loop] at place
    obtain ⟨outcome, -, ends⟩ := place
    rcases ends.state with ⟨state, -⟩ | ⟨state, -⟩ <;> rw [idle] at state <;> cases state

/-- While the scheduler runs, the loop has not come to its end. -/
theorem Inv.running (h : Inv world) (running : world.state = .running) : Loops world ∧
    ((∃ id await, world.loop = .step id await ∧ Awaits world id await) ∨
      ∃ await, world.loop = .delay await ∧ (await = .reacting ∨ await = .resuming → world.activeDelayCancel = false)) := by
  have place := h.place
  unfold Place at place
  cases loop : world.loop with
  | none =>
    rw [loop] at place
    rcases place.2.2.2 with ⟨state, -⟩ | ⟨state, -⟩ <;> rw [running] at state <;> cases state
  | step id await =>
    rw [loop] at place
    exact ⟨place.loops, .inl ⟨id, await, rfl, place⟩⟩
  | delay await =>
    rw [loop] at place
    exact ⟨place.1, .inr ⟨await, rfl, place.2⟩⟩
  | last id await =>
    rw [loop] at place
    exact absurd running place.2.1
  | returned outcome =>
    rw [loop] at place
    rcases place.2.state with ⟨state, -⟩ | ⟨state, -⟩ <;> rw [running] at state <;> cases state
  | done =>
    rw [loop] at place
    obtain ⟨outcome, -, ends⟩ := place
    rcases ends.state with ⟨state, -⟩ | ⟨state, -⟩ <;> rw [running] at state <;> cases state

theorem Inv.start (h : Inv world) (idle : world.state = .idle) :
    Inv { world with state := State.running, completion := .pending }.enterLoop := by
  obtain ⟨-, delay, -, -, terminal⟩ := h.idle idle
  apply Ready.enterLoop
  refine ⟨h.tables.frame rfl rfl rfl rfl rfl, h.delay.trans delay, delay, ⟨rfl, .inl rfl, nofun, ?_⟩, ?_⟩
  · exact fun never => absurd terminal never
  · rintro (never | never) <;> cases never

theorem Inv.stop (h : Inv world) (running : world.state = .running) :
    Inv { world with state := State.stopping, stopCalled := true }.finish := by
  obtain ⟨loops, place⟩ := h.running running
  have terminal : world.terminalStepError = none := by
    by_contra some
    have failed := loops.failed.mpr some
    rw [running] at failed
    cases failed
  have still : Loops { world with state := State.stopping, stopCalled := true } :=
    ⟨loops.completion, .inr (.inl rfl), nofun, fun never => absurd terminal never⟩
  refine Inv.finish ⟨h.tables.frame rfl rfl rfl rfl rfl, h.delay, ?_, fun _ => rfl⟩
  rcases place with ⟨id, await, loop, awaits⟩ | ⟨await, loop, delay⟩
  · refine Place.of_step loop ⟨still, awaits.delay, awaits.known, fun rejected => ?_, awaits.settled⟩
    exact ⟨nofun, (awaits.rejected rejected).2⟩
  · exact Place.of_delay loop still delay

theorem Inv.runStep (h : Inv world) (running : world.state = .running) (signal : Bool) :
    Inv { (world.beginStep signal).1 with callers := (world.beginStep signal).2 :: (world.beginStep signal).1.callers } := by
  obtain ⟨loops, place⟩ := h.running running
  obtain ⟨tables, active, outcome⟩ := h.tables.beginStep signal
  have rest : ∃ steps activeStep activeController nextStep, (world.beginStep signal).1 =
      { world with steps, activeStep, activeController, nextStep } ∧ ∀ id, world.steps id ≠ none → steps id ≠ none := by
    unfold World.beginStep
    split
    · exact ⟨_, _, _, _, rfl, fun _ => id⟩
    · refine ⟨_, _, _, _, rfl, ?_⟩
      intro id known
      show (world.setStep _ _).steps id ≠ none
      rw [steps_setStep]
      split
      · exact Option.some_ne_none _
      · exact known
  obtain ⟨steps, activeStep, activeController, nextStep, same, known⟩ := rest
  generalize (world.beginStep signal).2 = id at active ⊢
  rw [same] at tables active outcome ⊢
  refine ⟨⟨tables.below, tables.settled, tables.active, tables.controller, ?_⟩, h.delay, ?_, h.stopped⟩
  · intro other inside
    rcases List.mem_cons.mp inside with rfl | before
    · exact tables.known active
    · exact tables.callers other before
  · have pending : Loops { world with steps, activeStep, activeController, nextStep } := loops.frame rfl rfl rfl
    rcases place with ⟨other, await, loop, awaits⟩ | ⟨await, loop, delay⟩
    · refine Place.of_step loop ⟨pending.frame rfl rfl rfl, awaits.delay, known other awaits.known, ?_, ?_⟩
      · rintro ⟨error, rejected⟩
        have before : Rejected world other := ⟨error, (outcome other).symm.trans rejected⟩
        exact absurd running (awaits.rejected before).1
      · intro reached
        have before := awaits.settled reached
        rw [← outcome] at before
        exact before
    · exact Place.of_delay loop (pending.frame rfl rfl rfl) delay

theorem Inv.step (h : Inv world) {event : Event Recovery} (step : world.step event = some next) : Inv next := by
  cases event with
  | start =>
    unfold World.step at step
    dsimp only at step
    split at step
    · obtain rfl := Option.some.inj step
      exact h
    · rename_i idle
      obtain rfl := Option.some.inj step
      exact h.start idle
    · cases step
  | stop =>
    unfold World.step at step
    dsimp only at step
    split at step
    · rename_i idle
      obtain rfl := Option.some.inj step
      obtain ⟨loop, delay, inactive, count, -⟩ := h.idle idle
      refine ⟨h.tables.frame rfl rfl rfl rfl rfl, h.delay, ?_, fun _ => rfl⟩
      unfold Place
      rw [show ({ world with
        state := State.stopped, completion := .settled (.ok ()), stopCalled := true } : World Recovery).loop = _ from loop]
      exact ⟨delay, inactive, count, .inr ⟨rfl, rfl⟩⟩
    · rename_i running
      obtain rfl := Option.some.inj step
      exact h.stop running
    · obtain rfl := Option.some.inj step
      refine ⟨h.tables.frame rfl rfl rfl rfl rfl, h.delay, ?_, fun _ => rfl⟩
      exact h.place.frame ⟨rfl, rfl, rfl, rfl, rfl, rfl, rfl, fun _ => rfl, fun _ => id⟩
  | runStep signal =>
    unfold World.step at step
    dsimp only at step
    split at step
    · rename_i running
      obtain rfl := Option.some.inj step
      exact h.runStep running signal
    · cases step
  | timer =>
    unfold World.step at step
    dsimp only at step
    split at step
    · obtain rfl := Option.some.inj step
      exact h.finish
    · cases step
  | runnerReturns id raw =>
    unfold World.step at step
    dsimp only at step
    split at step
    · rename_i listening found
      obtain rfl := Option.some.inj step
      exact h.setStep (h.tables.eq_active found rfl) rfl
    · cases step
  | observe id accepted =>
    unfold World.step at step
    dsimp only at step
    split at step
    · rename_i raw listening found
      obtain rfl := Option.some.inj step
      exact (h.setStep (h.tables.eq_active found rfl) rfl).queue _
    · cases step
  | abort id =>
    unfold World.step at step
    dsimp only at step
    split at step
    · rename_i phase found
      obtain rfl := Option.some.inj step
      have active : world.activeStep = some id := by
        by_contra inactive
        cases (h.tables.settled id _ found inactive).2
      obtain ⟨other, there, pending⟩ := h.tables.active id active
      obtain rfl := Option.some.inj (found.symm.trans there)
      exact h.setStep active pending
    · cases step
  | turn =>
    unfold World.step at step
    dsimp only at step
    split at step
    · cases step
    · rename_i job queue _
      obtain rfl := Option.some.inj step
      have popped := h.queue queue
      cases job with
      | loop => exact popped.loopJob
      | step id => exact popped.stepJob id

end Events

end PortableCodex.RecoveryScheduler
