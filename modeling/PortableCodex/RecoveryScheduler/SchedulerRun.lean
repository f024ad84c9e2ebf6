import PortableCodex.RecoveryScheduler.SchedulerLaws

/-!
The laws of the scheduler over whole runs.

A step that is rejected while the scheduler runs is recorded, and one that the loop awaits is thrown to it.
A step that is rejected after `stop`, while the loop still has to resume from its delay, is neither: the loop
then finds no active step and the scheduler stops as if it had not failed (`run_unnoticed`). In the runs
without such a step (`noticing`) the loop sees every rejection (`Seen`).
-/

namespace PortableCodex.RecoveryScheduler

open Traces

variable {Recovery : Type}

/-! ### Rejections -/

namespace World

variable (world : World Recovery)

/-- The loop is at an `await` of the step. -/
def loopAwaits (id : StepId) : Bool :=
  match world.loop with
  | .step other _ => other = id
  | .last other _ => other = id
  | _ => false

/-- If a step is rejected after `stop`, the loop awaits it. -/
def noticed : Event Recovery → Bool
  | .turn =>
      match world.queue with
      | .step id :: _ =>
          match world.steps id with
          | some { phase := .observed _ false 0, .. } => world.state ≠ .stopping ∨ world.loopAwaits id = true
          | _ => true
      | _ => true
  | _ => true

end World

/-- The runs in which every rejection after `stop` is noticed. -/
def noticing (Recovery : Type) : System (World Recovery) (Event Recovery) where
  start world := world = .initial
  step world events next := ∃ event, world.step event = some next ∧ world.noticed event = true ∧ events = [event]

/-- The loop has seen a rejection, or is about to. -/
def Seen (world : World Recovery) : Prop :=
  ∀ id, Rejected world id → world.state = .failed ∨ ∃ other, world.loopAwaits other = true ∧ Rejected world other

section Moves

variable {world next : World Recovery} {id : StepId}

@[simp] theorem finish_state (world : World Recovery) : world.finish.state = world.state := by
  unfold World.finish
  split
  · dsimp only
    split <;> rfl
  · rfl

@[simp] theorem finish_steps (world : World Recovery) : world.finish.steps = world.steps := by
  unfold World.finish
  split
  · dsimp only
    split <;> rfl
  · rfl

@[simp] theorem finish_nextStep (world : World Recovery) : world.finish.nextStep = world.nextStep := by
  unfold World.finish
  split
  · dsimp only
    split <;> rfl
  · rfl

@[simp] theorem finish_activeStep (world : World Recovery) : world.finish.activeStep = world.activeStep := by
  unfold World.finish
  split
  · dsimp only
    split <;> rfl
  · rfl

theorem finish_loopAwaits (world : World Recovery) (id : StepId) : world.finish.loopAwaits id = world.loopAwaits id := by
  unfold World.finish
  split
  · dsimp only
    split
    · rename_i waits
      unfold World.loopAwaits
      rw [waits]
      rfl
    · rfl
  · rfl

/-- What the loop does to the rest. -/
structure Moves (world next : World Recovery) : Prop where
  outcome : ∀ id, next.outcome id = world.outcome id
  failed : world.state = .failed → next.state = .failed
  count : next.nextStep = world.nextStep ∨ next.activeStep ≠ none

theorem Moves.refl (world : World Recovery) : Moves world world := ⟨fun _ => rfl, fun failed => failed, .inl rfl⟩

theorem Moves.goTo (h : Moves world next) (loop : Loop) : Moves world (next.goTo loop) := ⟨h.outcome, h.failed, h.count⟩

theorem Moves.finish (h : Moves world next) : Moves world next.finish := by
  refine ⟨?_, ?_, ?_⟩
  · intro id
    unfold World.outcome
    rw [finish_steps]
    exact h.outcome id
  · rw [finish_state]
    exact h.failed
  · rw [finish_nextStep, finish_activeStep]
    exact h.count

theorem moves_throwLoop (world : World Recovery) : Moves world world.throwLoop := by
  unfold World.throwLoop
  apply Moves.goTo
  apply Moves.finish
  exact ⟨fun _ => rfl, fun _ => rfl, .inl rfl⟩

theorem throwLoop_state (world : World Recovery) : world.throwLoop.state = .failed :=
  finish_state { world with state := State.failed }

theorem moves_finishLoop (world : World Recovery) : Moves world world.finishLoop := by
  unfold World.finishLoop
  split
  · exact moves_throwLoop world
  · apply Moves.goTo
    apply Moves.finish
    split
    · rename_i stopping
      refine ⟨fun _ => rfl, fun failed => ?_, .inl rfl⟩
      rw [stopping] at failed
      cases failed
    · exact .refl world

theorem moves_leaveLoop (world : World Recovery) : Moves world world.leaveLoop := by
  unfold World.leaveLoop
  split
  · exact (Moves.refl world).goTo _
  · exact moves_finishLoop world

theorem moves_beginStep (h : Tables world) (listening : Bool) : Moves world (world.beginStep listening).1 := by
  obtain ⟨-, active, outcome⟩ := h.beginStep listening
  refine ⟨outcome, ?_, .inr ?_⟩
  · unfold World.beginStep
    split
    · exact fun failed => failed
    · exact fun failed => failed
  · rw [active]
    exact Option.some_ne_none _

theorem moves_enterLoop (h : Tables world) : Moves world world.enterLoop := by
  unfold World.enterLoop
  split
  · exact (moves_beginStep h false).goTo _
  · exact moves_leaveLoop world

theorem moves_advance {place : Await → Loop} {await : Await} {resumed : World Recovery} (moves : Moves world resumed) :
    Moves world (world.advance place await resumed) := by
  unfold World.advance
  cases await with
  | joining =>
    dsimp only
    split
    · exact (Moves.refl world).goTo _
    · exact ⟨fun _ => rfl, fun failed => failed, .inl rfl⟩
  | waiting => exact .refl world
  | reacting => exact (Moves.refl world).goTo _
  | resuming => exact moves

theorem moves_resumeStep (moves : Moves world next) : Moves world (world.resumeStep id next) := by
  unfold World.resumeStep
  split
  · exact moves
  · exact moves_throwLoop world

theorem moves_loopJob (h : Tables world) : Moves world world.loopJob := by
  unfold World.loopJob
  split
  · apply moves_advance
    apply moves_resumeStep
    split
    · exact ⟨fun _ => rfl, fun failed => failed, .inl rfl⟩
    · exact moves_leaveLoop world
  · exact moves_advance (moves_enterLoop h)
  · exact moves_advance (moves_resumeStep (moves_finishLoop world))
  · exact ⟨fun _ => rfl, fun failed => failed, .inl rfl⟩
  · exact .refl world
  · exact .refl world

/-- A rejected step that the loop awaits is thrown, unless the loop awaits it still. -/
theorem advance_rejected {place : Await → Loop} {await : Await} {resumed : World Recovery}
    (awaits : ∀ (world : World Recovery) await, world.loop = place await → world.loopAwaits id = true)
    (here : world.loop = place await) :
    (world.advance place await (world.resumeStep id resumed)).loopAwaits id = true ∨
      (Rejected world id → (world.advance place await (world.resumeStep id resumed)).state = .failed) := by
  unfold World.advance
  cases await with
  | joining =>
    dsimp only
    split
    · exact .inl (awaits _ .reacting rfl)
    · exact .inl (awaits _ .waiting rfl)
  | waiting => exact .inl (awaits world .waiting here)
  | reacting => exact .inl (awaits _ .resuming rfl)
  | resuming =>
    refine .inr ?_
    rintro ⟨error, rejected⟩
    dsimp only
    unfold World.resumeStep
    rw [rejected]
    exact throwLoop_state world

theorem loopJob_rejected (awaits : world.loopAwaits id = true) (rejected : Rejected world id) :
    world.loopJob.state = .failed ∨ world.loopJob.loopAwaits id = true := by
  unfold World.loopJob
  cases loop : world.loop with
  | step other await =>
    have same : other = id := by
      unfold World.loopAwaits at awaits
      rw [loop] at awaits
      exact of_decide_eq_true awaits
    subst same
    dsimp only
    have there (world : World Recovery) (await : Await) (here : world.loop = .step other await) :
        world.loopAwaits other = true := by
      unfold World.loopAwaits
      rw [here]
      exact decide_eq_true rfl
    rcases advance_rejected there loop with still | thrown
    · exact .inr still
    · exact .inl (thrown rejected)
  | last other await =>
    have same : other = id := by
      unfold World.loopAwaits at awaits
      rw [loop] at awaits
      exact of_decide_eq_true awaits
    subst same
    dsimp only
    have there (world : World Recovery) (await : Await) (here : world.loop = .last other await) :
        world.loopAwaits other = true := by
      unfold World.loopAwaits
      rw [here]
      exact decide_eq_true rfl
    rcases advance_rejected there loop with still | thrown
    · exact .inr still
    · exact .inl (thrown rejected)
  | none =>
    unfold World.loopAwaits at awaits
    rw [loop] at awaits
    cases awaits
  | delay await =>
    unfold World.loopAwaits at awaits
    rw [loop] at awaits
    cases awaits
  | returned outcome =>
    unfold World.loopAwaits at awaits
    rw [loop] at awaits
    cases awaits
  | done =>
    unfold World.loopAwaits at awaits
    rw [loop] at awaits
    cases awaits

end Moves

section Settling

variable {world next : World Recovery} {id : StepId}

theorem reacted_loopAwaits (world : World Recovery) (id other : StepId) :
    { world with loop := reacted id world.loop }.loopAwaits other = world.loopAwaits other := by
  unfold World.loopAwaits
  cases loop : world.loop with
  | step awaited await =>
    obtain ⟨later, same, -⟩ := reacted_step id awaited await
    dsimp only
    rw [same]
  | last awaited await =>
    obtain ⟨later, same, -⟩ := reacted_last id awaited await
    dsimp only
    rw [same]
  | delay await =>
    dsimp only
    rw [reacted_delay]
  | none => rfl
  | returned outcome => rfl
  | done => rfl

theorem settle_spec (world : World Recovery) (id : StepId) (raw : Raw Recovery) (accepted : Bool) :
    (world.settle id raw accepted).state = world.state ∧ (world.settle id raw accepted).nextStep = world.nextStep ∧
      (∀ other, (world.settle id raw accepted).loopAwaits other = world.loopAwaits other) ∧
      ∀ other, (world.settle id raw accepted).outcome other =
        if other = id then some (if accepted then .ok raw.receipt else .error .outcomeUncertain)
        else world.outcome other := by
  obtain ⟨queue, same⟩ := settle_eq world id raw accepted
  rw [same]
  exact ⟨rfl, rfl, reacted_loopAwaits world id, fun other => outcome_setStep world id other _⟩

/-- What the end of a step does. -/
structure Settled (world next : World Recovery) (id : StepId) (accepted : Bool) : Prop where
  state : next.state = if accepted = false ∧ world.state = .running then .failed else world.state
  count : next.nextStep = world.nextStep
  loopAwaits : ∀ other, next.loopAwaits other = world.loopAwaits other
  own : next.outcome id ≠ none
  fulfilled : accepted = true → ¬ Rejected next id
  rejected : accepted = false → Rejected next id
  outcome : ∀ other, other ≠ id → next.outcome other = world.outcome other

theorem settleStep_spec (world : World Recovery) (id : StepId) (raw : Raw Recovery) (accepted : Bool) :
    Settled world (world.settleStep id raw accepted) id accepted := by
  unfold World.settleStep
  dsimp only
  cases accepted with
  | true =>
    rw [if_pos rfl]
    obtain ⟨state, count, awaits, outcome⟩ :=
      settle_spec { world with activeController := none, activeStep := none } id raw true
    refine ⟨state.trans (if_neg nofun).symm, count, awaits, ?_, ?_, nofun, fun other distinct => ?_⟩
    · rw [outcome, if_pos rfl]
      exact Option.some_ne_none _
    · rintro - ⟨error, rejected⟩
      rw [outcome, if_pos rfl] at rejected
      cases rejected
    · rw [outcome, if_neg distinct]
      rfl
  | false =>
    rw [if_neg Bool.false_ne_true]
    unfold World.recordStepFailure
    dsimp only
    split
    · rename_i running
      obtain ⟨state, count, awaits, outcome⟩ := settle_spec
        { { world with activeController := none, activeStep := none } with
          state := State.failed, terminalStepError := some ErrorCode.outcomeUncertain }.finish id raw false
      refine ⟨?_, ?_, ?_, ?_, nofun, fun _ => ?_, fun other distinct => ?_⟩
      · rw [state, finish_state, if_pos ⟨rfl, running⟩]
      · rw [count, finish_nextStep]
      · intro other
        rw [awaits, finish_loopAwaits]
        rfl
      · rw [outcome, if_pos rfl]
        exact Option.some_ne_none _
      · exact ⟨_, (outcome id).trans (if_pos rfl)⟩
      · rw [outcome, if_neg distinct]
        unfold World.outcome
        rw [finish_steps]
    · rename_i ended
      obtain ⟨state, count, awaits, outcome⟩ :=
        settle_spec { world with activeController := none, activeStep := none } id raw false
      refine ⟨?_, count, awaits, ?_, nofun, fun _ => ?_, fun other distinct => ?_⟩
      · rw [state, if_neg fun both => ended both.2]
      · rw [outcome, if_pos rfl]
        exact Option.some_ne_none _
      · exact ⟨_, (outcome id).trans (if_pos rfl)⟩
      · rw [outcome, if_neg distinct]
        rfl

/-- The active step ends in one of these states, while the completion is pending. -/
theorem Inv.active_loops (h : Inv world) (active : world.activeStep = some id) : Loops world := by
  have place := h.place
  unfold Place at place
  cases loop : world.loop with
  | none =>
    rw [loop] at place
    rw [place.2.1] at active
    cases active
  | step other await =>
    rw [loop] at place
    exact place.loops
  | delay await =>
    rw [loop] at place
    exact place.1
  | last other await =>
    rw [loop] at place
    exact place.1.loops
  | returned outcome =>
    rw [loop] at place
    rw [place.2.active] at active
    cases active
  | done =>
    rw [loop] at place
    obtain ⟨outcome, -, ends⟩ := place
    rw [ends.active] at active
    cases active

/-- The step of a turn that settles it is seen. -/
theorem Seen.settleStep (seen : Seen world) (h : Inv world) (active : world.activeStep = some id) (raw : Raw Recovery)
    (accepted : Bool) (noticed : accepted = false → world.state ≠ .stopping ∨ world.loopAwaits id = true) :
    Seen (world.settleStep id raw accepted) := by
  have settled := settleStep_spec world id raw accepted
  intro other rejected
  cases accepted with
  | false =>
    by_cases running : world.state = .running
    · left
      rw [settled.state, if_pos ⟨rfl, running⟩]
    · have same : (world.settleStep id raw false).state = world.state := by
        rw [settled.state, if_neg fun both => running both.2]
      rcases (h.active_loops active).state with state | state | state
      · exact absurd state running
      · right
        refine ⟨id, ?_, settled.rejected rfl⟩
        rw [settled.loopAwaits]
        rcases noticed rfl with never | awaits
        · exact absurd state never
        · exact awaits
      · left
        rw [same]
        exact state
  | true =>
    have old {j : StepId} (there : Rejected (world.settleStep id raw true) j) : j ≠ id ∧ Rejected world j := by
      have distinct : j ≠ id := by
        rintro rfl
        exact settled.fulfilled rfl there
      obtain ⟨error, rejected⟩ := there
      rw [settled.outcome j distinct] at rejected
      exact ⟨distinct, error, rejected⟩
    rcases seen other (old rejected).2 with failed | ⟨awaited, awaits, thrown⟩
    · left
      rw [settled.state, if_neg nofun]
      exact failed
    · right
      refine ⟨awaited, ?_, ?_⟩
      · rw [settled.loopAwaits]
        exact awaits
      · obtain ⟨error, outcome⟩ := thrown
        refine ⟨error, ?_⟩
        rw [settled.outcome awaited]
        · exact outcome
        · rintro rfl
          rw [h.tables.outcome_active active] at outcome
          cases outcome

end Settling

/-! ### Events -/

section Events

variable {world next : World Recovery}

/-- An event that settles no step, and leaves the loop at the rejections that it is to see. -/
structure Passes (world next : World Recovery) : Prop where
  moves : Moves world next
  awaits : ∀ id, Rejected world id → world.loopAwaits id = true → next.state = .failed ∨ next.loopAwaits id = true

theorem Passes.still (moves : Moves world next) (loop : ∀ id, next.loopAwaits id = world.loopAwaits id) :
    Passes world next := by
  refine ⟨moves, fun id _ awaits => .inr ?_⟩
  rw [loop]
  exact awaits

theorem passes_setStep (h : Inv world) {id : StepId} {step : Step Recovery} (active : world.activeStep = some id)
    (pending : step.outcome = none) (queue : List Job) : Passes world { world.setStep id step with queue } := by
  refine Passes.still ⟨fun other => ?_, fun failed => failed, .inl rfl⟩ fun _ => rfl
  show (world.setStep id step).outcome other = _
  rw [outcome_setStep]
  split
  · rename_i same
    rw [pending, same, h.tables.outcome_active active]
  · rfl

/-- What an event does. -/
theorem step_cases (h : Inv world) {event : Event Recovery} (step : world.step event = some next) :
    Passes world next ∨ ∃ id raw accepted listening queue, event = .turn ∧ world.queue = .step id :: queue ∧
      world.steps id = some { phase := .observed raw accepted 0, listening } ∧
      next = { world with queue }.settleStep id raw accepted := by
  cases event with
  | start =>
    left
    unfold World.step at step
    dsimp only at step
    split at step
    · obtain rfl := Option.some.inj step
      exact .still (.refl _) fun _ => rfl
    · rename_i idle
      obtain rfl := Option.some.inj step
      obtain ⟨loop, -, -, -, -⟩ := h.idle idle
      have tables : Tables { world with state := State.running, completion := .pending } :=
        h.tables.frame rfl rfl rfl rfl rfl
      have moves := moves_enterLoop tables
      refine ⟨⟨moves.outcome, ?_, moves.count⟩, ?_⟩
      · intro failed
        rw [idle] at failed
        cases failed
      · intro id _ awaits
        unfold World.loopAwaits at awaits
        rw [loop] at awaits
        cases awaits
    · cases step
  | stop =>
    left
    unfold World.step at step
    dsimp only at step
    split at step
    · rename_i idle
      obtain rfl := Option.some.inj step
      refine .still ⟨fun _ => rfl, fun failed => ?_, .inl rfl⟩ fun _ => rfl
      rw [idle] at failed
      cases failed
    · rename_i running
      obtain rfl := Option.some.inj step
      refine .still (Moves.finish ⟨fun _ => rfl, fun failed => ?_, .inl rfl⟩) ?_
      · rw [running] at failed
        cases failed
      · exact finish_loopAwaits { world with state := State.stopping, stopCalled := true }
    · obtain rfl := Option.some.inj step
      exact .still ⟨fun _ => rfl, fun failed => failed, .inl rfl⟩ fun _ => rfl
  | runStep signal =>
    left
    unfold World.step at step
    dsimp only at step
    split at step
    · obtain rfl := Option.some.inj step
      have moves := moves_beginStep h.tables signal
      refine .still ⟨moves.outcome, moves.failed, moves.count⟩ fun id => ?_
      show (world.beginStep signal).1.loopAwaits id = _
      unfold World.beginStep
      split <;> rfl
    · cases step
  | timer =>
    left
    unfold World.step at step
    dsimp only at step
    split at step
    · obtain rfl := Option.some.inj step
      exact .still (Moves.refl world).finish (finish_loopAwaits world)
    · cases step
  | runnerReturns id raw =>
    left
    unfold World.step at step
    dsimp only at step
    split at step
    · rename_i listening found
      obtain rfl := Option.some.inj step
      exact passes_setStep h (h.tables.eq_active found rfl) rfl world.queue
    · cases step
  | observe id accepted =>
    left
    unfold World.step at step
    dsimp only at step
    split at step
    · rename_i raw listening found
      obtain rfl := Option.some.inj step
      exact passes_setStep h (h.tables.eq_active found rfl) rfl _
    · cases step
  | abort id =>
    left
    unfold World.step at step
    dsimp only at step
    split at step
    · rename_i phase found
      obtain rfl := Option.some.inj step
      have active : world.activeStep = some id := by
        by_contra inactive
        cases (h.tables.settled id _ found inactive).2
      obtain ⟨other, there, pending⟩ := h.tables.active id active
      obtain rfl := Option.some.inj (found.symm.trans there)
      have silent : (Step.mk phase false).outcome = none := pending
      exact passes_setStep h active silent world.queue
    · cases step
  | turn =>
    unfold World.step at step
    dsimp only at step
    split at step
    · cases step
    · rename_i job queue shape
      obtain rfl := Option.some.inj step
      have popped := h.queue queue
      cases job with
      | loop =>
        left
        have moves := moves_loopJob popped.tables
        refine ⟨⟨moves.outcome, moves.failed, moves.count⟩, fun id rejected awaits => ?_⟩
        exact @loopJob_rejected _ { world with queue } id awaits rejected
      | step id =>
        change Passes world ({ world with queue }.stepJob id) ∨ _
        unfold World.stepJob
        split
        · rename_i raw accepted jobs listening found
          left
          exact passes_setStep h (h.tables.eq_active found rfl) rfl _
        · rename_i raw accepted listening found
          right
          refine ⟨id, raw, accepted, listening, queue, rfl, shape, found, ?_⟩
          show World.stepJob _ id = _
          unfold World.stepJob
          rw [show ({ world with queue } : World Recovery).steps id = _ from found]
        · left
          exact .still ⟨fun _ => rfl, fun failed => failed, .inl rfl⟩ fun _ => rfl

theorem Seen.passes (seen : Seen world) (passes : Passes world next) : Seen next := by
  rintro id ⟨error, rejected⟩
  rw [passes.moves.outcome] at rejected
  rcases seen id ⟨error, rejected⟩ with failed | ⟨other, awaits, thrown, outcome⟩
  · exact .inl (passes.moves.failed failed)
  · rcases passes.awaits other ⟨thrown, outcome⟩ awaits with failed | still
    · exact .inl failed
    · exact .inr ⟨other, still, thrown, (passes.moves.outcome other).trans outcome⟩

theorem Seen.step (seen : Seen world) (h : Inv world) {event : Event Recovery} (step : world.step event = some next)
    (noticed : world.noticed event = true) : Seen next := by
  rcases step_cases h step with passes | ⟨id, raw, accepted, listening, queue, rfl, shape, found, rfl⟩
  · exact seen.passes passes
  · have popped : Seen { world with queue } := seen
    refine popped.settleStep (h.queue queue) (h.tables.eq_active found rfl) raw accepted ?_
    rintro rfl
    unfold World.noticed at noticed
    simp only [shape, found] at noticed
    exact of_decide_eq_true noticed

end Events

/-! ### The laws -/

structure SchedulerLaws (world : World Recovery) : Prop where
  /-- At most one call of the runner is in flight. -/
  single : ∀ id other step otherStep, world.steps id = some step → world.steps other = some otherStep →
    step.phase = .calling → otherStep.phase = .calling → id = other
  /-- There is no step before `start`, and each is dispatched while the completion is pending. -/
  idle : world.completion = .none → world.nextStep = 0
  dispatched : ∀ event next, world.step event = some next → next.nextStep ≠ world.nextStep →
    next.completion = .pending
  /-- `runStep` returns the promise of the active step. -/
  joined : ∀ signal next, world.step (.runStep signal) = some next → ∃ id, next.callers = id :: world.callers ∧
    next.activeStep = some id ∧ ∀ active, world.activeStep = some active → active = id
  /-- An outcome is final, and every promise has one in the end. -/
  outcomes : ∀ event next id, world.step event = some next → world.outcome id ≠ none →
    next.outcome id = world.outcome id
  answered : ∀ outcome, world.completion = .settled outcome → ∀ id ∈ world.callers, world.outcome id ≠ none
  stopped : world.completion = .settled (.ok ()) → world.stopCalled = true ∧
    ∀ id step, world.steps id = some step → ∃ receipt, step.outcome = some (.ok receipt)
  rejected : ∀ outcome, world.completion = .settled outcome → outcome ≠ .ok () → outcome = .error .outcomeUncertain
  /-- Nothing is left behind. -/
  clean : ∀ outcome, world.completion = .settled outcome → world.timer = false ∧ world.activeDelayCancel = false ∧
    world.activeStep = none ∧ world.activeController = none ∧
    ∀ id step, world.steps id = some step → step.listening = false

section Laws

variable {world next : World Recovery}

/-- A settled completion is the one of an idle scheduler that was stopped, or of the loop. -/
theorem Inv.completed (h : Inv world) {outcome : Except ErrorCode Unit} (settled : world.completion = .settled outcome) :
    Ends world outcome ∧ ∀ id, world.loopAwaits id = false := by
  have place := h.place
  unfold Place at place
  unfold World.loopAwaits
  cases loop : world.loop with
  | none =>
    rw [loop] at place
    obtain ⟨delay, inactive, -, ⟨-, none, -⟩ | ⟨stopped, same⟩⟩ := place
    · rw [none] at settled
      cases settled
    · obtain rfl := Completion.settled.inj (same.symm.trans settled)
      exact ⟨⟨delay, inactive, .inl ⟨stopped, rfl⟩⟩, fun _ => rfl⟩
  | step id await =>
    rw [loop] at place
    rw [place.loops.completion] at settled
    cases settled
  | delay await =>
    rw [loop] at place
    rw [place.1.completion] at settled
    cases settled
  | last id await =>
    rw [loop] at place
    rw [place.1.loops.completion] at settled
    cases settled
  | returned result =>
    rw [loop] at place
    rw [place.1] at settled
    cases settled
  | done =>
    rw [loop] at place
    obtain ⟨result, same, ends⟩ := place
    obtain rfl := Completion.settled.inj (same.symm.trans settled)
    exact ⟨ends, fun _ => rfl⟩

theorem Inv.uncompleted (h : Inv world) (none : world.completion = .none) : world.nextStep = 0 := by
  have place := h.place
  unfold Place at place
  cases loop : world.loop with
  | none =>
    rw [loop] at place
    exact place.2.2.1
  | step id await =>
    rw [loop] at place
    rw [place.loops.completion] at none
    cases none
  | delay await =>
    rw [loop] at place
    rw [place.1.completion] at none
    cases none
  | last id await =>
    rw [loop] at place
    rw [place.1.loops.completion] at none
    cases none
  | returned result =>
    rw [loop] at place
    rw [place.1] at none
    cases none
  | done =>
    rw [loop] at place
    obtain ⟨result, same, -⟩ := place
    rw [same] at none
    cases none

/-- With no active step, every step has an outcome. -/
theorem Inv.outcome_of_inactive (h : Inv world) (inactive : world.activeStep = none) {id : StepId}
    {step : Step Recovery} (found : world.steps id = some step) : step.outcome ≠ none ∧ step.listening = false := by
  apply h.tables.settled id step found
  rw [inactive]
  exact nofun

theorem outcome_of_steps {id : StepId} {step : Step Recovery} (found : world.steps id = some step) :
    world.outcome id = step.outcome := by
  unfold World.outcome
  rw [found]
  rfl

theorem laws_of_inv (h : Inv world) (seen : Seen world) : SchedulerLaws world := by
  have calling (id : StepId) (step : Step Recovery) (found : world.steps id = some step)
      (calls : step.phase = .calling) : world.activeStep = some id := by
    apply h.tables.eq_active found
    unfold Step.outcome
    rw [calls]
  constructor
  · intro id other step otherStep found foundOther calls callsOther
    exact Option.some.inj ((calling id step found calls).symm.trans (calling other otherStep foundOther callsOther))
  · exact h.uncompleted
  · intro event next step dispatches
    have after := h.step step
    rcases step_cases h step with passes | ⟨id, raw, accepted, listening, queue, rfl, -, -, rfl⟩
    · rcases passes.moves.count with same | active
      · exact absurd same dispatches
      · obtain ⟨id, active⟩ := Option.ne_none_iff_exists'.mp active
        exact (after.active_loops active).completion
    · exact absurd (settleStep_spec _ id raw accepted).count dispatches
  · intro signal next step
    unfold World.step at step
    dsimp only at step
    split at step
    · obtain rfl := Option.some.inj step
      refine ⟨(world.beginStep signal).2, ?_, (h.tables.beginStep signal).2.1, ?_⟩
      · show _ :: (world.beginStep signal).1.callers = _
        unfold World.beginStep
        split <;> rfl
      · intro active there
        unfold World.beginStep
        rw [there]
    · cases step
  · intro event next id step settled
    rcases step_cases h step with passes | ⟨other, raw, accepted, listening, queue, rfl, -, found, rfl⟩
    · exact passes.moves.outcome id
    · refine (settleStep_spec { world with queue } other raw accepted).outcome id ?_
      rintro rfl
      exact settled (h.tables.outcome_active (h.tables.eq_active found rfl))
  · intro outcome settled id inside
    obtain ⟨ends, -⟩ := h.completed settled
    obtain ⟨step, found⟩ := Option.ne_none_iff_exists'.mp (h.tables.callers id inside)
    rw [outcome_of_steps found]
    exact (h.outcome_of_inactive ends.active found).1
  · intro settled
    obtain ⟨ends, nowhere⟩ := h.completed settled
    have stopped : world.state = .stopped := by
      rcases ends.state with ⟨stopped, -⟩ | ⟨-, never⟩
      · exact stopped
      · cases never
    refine ⟨h.stopped (.inr stopped), fun id step found => ?_⟩
    obtain ⟨result, there⟩ := Option.ne_none_iff_exists'.mp (h.outcome_of_inactive ends.active found).1
    cases result with
    | ok receipt => exact ⟨receipt, there⟩
    | error error =>
      have rejected : Rejected world id := ⟨error, (outcome_of_steps found).trans there⟩
      rcases seen id rejected with failed | ⟨other, awaits, -⟩
      · rw [stopped] at failed
        cases failed
      · rw [nowhere other] at awaits
        cases awaits
  · intro outcome settled fails
    obtain ⟨ends, -⟩ := h.completed settled
    rcases ends.state with ⟨-, same⟩ | ⟨-, same⟩
    · exact absurd same fails
    · exact same
  · intro outcome settled
    obtain ⟨ends, -⟩ := h.completed settled
    refine ⟨h.delay.trans ends.delay, ends.delay, ends.active, h.tables.controller.trans ends.active, ?_⟩
    intro id step found
    exact (h.outcome_of_inactive ends.active found).2

end Laws

/-- What the scheduler promises, as long as no rejection goes unnoticed. -/
theorem schedulerLaws {trace : List (Event Recovery)} {world : World Recovery}
    (run : Run (noticing Recovery) trace world) : SchedulerLaws world := by
  have both : Inv world ∧ Seen world := by
    refine @Run.invariant _ _ _ (fun _ world => Inv world ∧ Seen world) ?_ ?_ _ _ run
    · rintro _ rfl
      refine ⟨inv_initial, ?_⟩
      rintro id ⟨error, never⟩
      cases never
    · rintro _ _ _ _ ⟨inv, seen⟩ ⟨event, step, noticed, -⟩
      exact ⟨inv.step step, seen.step inv step noticed⟩
  exact laws_of_inv both.1 both.2

/-! ### Runs -/

/-- The first step of the loop is fulfilled, and a second one, of `runStep`, is past its failing observer. -/
def secondStep : List (Event Unit) :=
  [.start, .turn, .runnerReturns 0 (.recovered ()), .observe 0 true] ++ List.replicate 7 .turn ++
    [.runStep false, .runnerReturns 1 (.recovered ()), .observe 1 false]

/-- `stop` comes when the second step is about to be settled. -/
def lateStop : List (Event Unit) := secondStep ++ [.turn, .turn, .stop] ++ List.replicate 5 .turn

/-- `stop` comes before. -/
def earlyStop : List (Event Unit) := secondStep ++ [.stop] ++ List.replicate 10 .turn

theorem lateStop_ends : (lateStop.foldlM World.step .initial).map (fun world => (world.completion, world.outcome 1)) =
    some (.settled (.ok ()), some (.error .outcomeUncertain)) := by decide +kernel

theorem run_unnoticed : ∃ trace world, Run (scheduler Unit) trace world ∧
    world.completion = .settled (.ok ()) ∧ world.outcome 1 = some (.error .outcomeUncertain) := by
  obtain ⟨world, ran, ends⟩ := Option.map_eq_some_iff.mp lateStop_ends
  obtain ⟨completion, outcome⟩ := Prod.mk.inj ends
  refine ⟨_, world, Run.foldlM (.start rfl) ?_ ran, completion, outcome⟩
  intro event _ before after step
  exact ⟨event, step, rfl⟩

/-- The scheduler can stop as if a step had not been rejected. -/
theorem stopped_unnoticed : ¬ ∀ (trace : List (Event Unit)) (world : World Unit), Run (scheduler Unit) trace world →
    world.completion = .settled (.ok ()) →
    ∀ id step, world.steps id = some step → ∃ receipt, step.outcome = some (.ok receipt) := by
  intro fulfilled
  obtain ⟨trace, world, run, completion, rejected⟩ := run_unnoticed
  obtain ⟨step, found, outcome⟩ := Option.bind_eq_some_iff.mp rejected
  obtain ⟨receipt, same⟩ := fulfilled trace world run completion 1 step found
  rw [outcome] at same
  cases same

/-- An event whose rejection, if it is one after `stop`, is noticed. -/
def World.noticedStep (world : World Unit) (event : Event Unit) : Option (World Unit) :=
  if world.noticed event then world.step event else none

theorem earlyStop_ends : (earlyStop.foldlM World.noticedStep .initial).map (fun world => world.completion) =
    some (.settled (.error .outcomeUncertain)) := by decide +kernel

theorem schedulerLaws_earlyStop : ∃ trace world, Run (noticing Unit) trace world ∧
    world.completion = .settled (.error .outcomeUncertain) ∧ world.timer = false ∧ world.activeStep = none := by
  obtain ⟨world, ran, completion⟩ := Option.map_eq_some_iff.mp earlyStop_ends
  have run : Run (noticing Unit) ([] ++ earlyStop) world := by
    refine Run.foldlM (.start rfl) ?_ ran
    intro event _ before after step
    unfold World.noticedStep at step
    split at step
    · rename_i noticed
      exact ⟨event, step, noticed, rfl⟩
    · cases step
  obtain ⟨timer, -, inactive, -⟩ := (schedulerLaws run).clean _ completion
  exact ⟨_, world, run, completion, timer, inactive⟩

end PortableCodex.RecoveryScheduler
