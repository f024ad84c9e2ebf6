import PortableCodex.Traces.Run
import Mathlib.Logic.Function.Basic

/-!
The restore recovery scheduler, at the granularity of microtasks.

An event is a call from outside, the end of a call of the runner, the firing of the timer, or the turn of the
first job in the queue. Everything that a call or a job does before it awaits is one event. An `await` of a
protected promise takes a job that joins it, one that reacts to its settlement and one that resumes.

A call that is refused is no event. A call from within `runOnce` acts as one right after it, and a call from
within the observer is refused. Every error of a step or of the loop is the one of an uncertain outcome.
A listener of a genuine signal can be added and removed.
-/

namespace PortableCodex.RecoveryScheduler

open Traces

variable {Recovery : Type}

/-! ### Steps -/

/-- The end of a call of the runner. -/
inductive Raw (Recovery : Type) where
  | recovered (recovery : Recovery)
  | busy
  | failed
deriving DecidableEq

inductive Receipt (Recovery : Type) where
  | completed (recovery : Recovery)
  | busy
  | outcomeUncertain
deriving DecidableEq

/-- `callRunner`, and the receipt of `runStepInternal`. -/
def Raw.receipt : Raw Recovery → Receipt Recovery
  | .recovered recovery => .completed recovery
  | .busy => .busy
  | .failed => .outcomeUncertain

inductive ErrorCode where
  | outcomeUncertain
deriving DecidableEq

/-- Where a step is: in the call of the runner, after it, past its observer with some jobs to go, or settled. -/
inductive Phase (Recovery : Type) where
  | calling
  | returned (raw : Raw Recovery)
  | observed (raw : Raw Recovery) (accepted : Bool) (jobs : Nat)
  | settled (raw : Raw Recovery) (accepted : Bool)

structure Step (Recovery : Type) where
  phase : Phase Recovery
  /-- The listener for the abort of the signal of its caller is set. -/
  listening : Bool

/-- What the promise of a step is settled with. -/
def Step.outcome (step : Step Recovery) : Option (Except ErrorCode (Receipt Recovery)) :=
  match step.phase with
  | .settled raw accepted => some (if accepted then .ok raw.receipt else .error .outcomeUncertain)
  | _ => none

abbrev StepId := Nat

/-! ### The scheduler -/

inductive State where
  | idle
  | running
  | stopping
  | stopped
  | failed
deriving DecidableEq

inductive Completion where
  | none
  | pending
  | settled (outcome : Except ErrorCode Unit)
deriving DecidableEq

/-- Where an `await` is. -/
inductive Await where
  | joining
  | waiting
  | reacting
  | resuming
deriving DecidableEq

/-- Where `runLoop` is. -/
inductive Loop where
  | none
  | step (id : StepId) (await : Await)
  | delay (await : Await)
  | last (id : StepId) (await : Await)
  | returned (outcome : Except ErrorCode Unit)
  | done
deriving DecidableEq

inductive Job where
  | loop
  | step (id : StepId)
deriving DecidableEq

structure World (Recovery : Type) where
  state : State
  completion : Completion
  activeStep : Option StepId
  activeController : Option StepId
  activeDelayCancel : Bool
  terminalStepError : Option ErrorCode
  timer : Bool
  loop : Loop
  steps : StepId → Option (Step Recovery)
  nextStep : StepId
  /-- The promises that `runStep` has returned. -/
  callers : List StepId
  stopCalled : Bool
  queue : List Job

namespace World

def initial : World Recovery where
  state := .idle
  completion := .none
  activeStep := none
  activeController := none
  activeDelayCancel := false
  terminalStepError := none
  timer := false
  loop := .none
  steps := fun _ => none
  nextStep := 0
  callers := []
  stopCalled := false
  queue := []

variable (world : World Recovery)

def outcome (id : StepId) : Option (Except ErrorCode (Receipt Recovery)) := (world.steps id).bind Step.outcome

def setStep (id : StepId) (step : Step Recovery) : World Recovery :=
  { world with steps := Function.update world.steps id (some step) }

/-- The loop is at a place where it has a job. -/
def goTo (loop : Loop) : World Recovery := { world with loop, queue := world.queue ++ [.loop] }

/-- `beginStep`, and the step whose promise it returns. -/
def beginStep (listening : Bool) : World Recovery × StepId :=
  match world.activeStep with
  | some id => (world, id)
  | none =>
      ({ world.setStep world.nextStep { phase := .calling, listening } with
          activeStep := some world.nextStep
          activeController := some world.nextStep
          nextStep := world.nextStep + 1 }, world.nextStep)

/-- `finish` of `waitForInterval`, which is `activeDelayCancel` as long as it has not been called. -/
def finish : World Recovery :=
  if world.activeDelayCancel then
    let finished := { world with timer := false, activeDelayCancel := false }
    if world.loop = .delay .waiting then finished.goTo (.delay .reacting) else finished
  else world

/-- `waitForInterval`, awaited by the loop. -/
def waitForInterval : World Recovery :=
  { world with timer := true, activeDelayCancel := true }.goTo (.delay .joining)

/-! ### The loop -/

/-- The end of `runLoop`; its `finally` has no delay to cancel. -/
def throwLoop : World Recovery := { world with state := .failed }.finish.goTo (.returned (.error .outcomeUncertain))

def finishLoop : World Recovery :=
  if world.terminalStepError ≠ none then world.throwLoop
  else
    let stopped := if world.state = .stopping then { world with state := .stopped } else world
    stopped.finish.goTo (.returned (.ok ()))

def leaveLoop : World Recovery :=
  match world.activeStep with
  | some id => world.goTo (.last id .joining)
  | none => world.finishLoop

def enterLoop : World Recovery :=
  if world.state = .running then
    let (begun, id) := world.beginStep false
    begun.goTo (.step id .joining)
  else world.leaveLoop

/-- The loop after an `await` of a step. -/
def resumeStep (id : StepId) (next : World Recovery) : World Recovery :=
  match world.outcome id with
  | some (.ok _) => next
  | _ => world.throwLoop

/-- What an `await` joins is already settled. -/
def awaited : Loop → Bool
  | .step id _ => (world.outcome id).isSome
  | .delay _ => !world.activeDelayCancel
  | .last id _ => (world.outcome id).isSome
  | _ => false

/-- An `await` takes its next job. -/
def advance (place : Await → Loop) (await : Await) (resumed : World Recovery) : World Recovery :=
  match await with
  | .joining => if world.awaited (place .joining) then world.goTo (place .reacting) else { world with loop := place .waiting }
  | .waiting => world
  | .reacting => world.goTo (place .resuming)
  | .resuming => resumed

def loopJob : World Recovery :=
  match world.loop with
  | .step id await =>
      world.advance (.step id) await
        (world.resumeStep id (if world.state = .running then world.waitForInterval else world.leaveLoop))
  | .delay await => world.advance .delay await world.enterLoop
  | .last id await => world.advance (.last id) await (world.resumeStep id world.finishLoop)
  | .returned outcome => { world with completion := .settled outcome, loop := .done }
  | .none => world
  | .done => world

/-! ### The active step -/

/-- `recordStepFailure` -/
def recordStepFailure (error : ErrorCode) : World Recovery :=
  if world.state = .running then { world with state := .failed, terminalStepError := some error }.finish else world

/-- The promise of a step is settled. -/
def settle (id : StepId) (raw : Raw Recovery) (accepted : Bool) : World Recovery :=
  let settled := world.setStep id { phase := .settled raw accepted, listening := false }
  if world.loop = .step id .waiting then settled.goTo (.step id .reacting)
  else if world.loop = .last id .waiting then settled.goTo (.last id .reacting)
  else settled

/-- `settleStep` -/
def settleStep (id : StepId) (raw : Raw Recovery) (accepted : Bool) : World Recovery :=
  let cleaned := { world with activeController := none, activeStep := none }
  if accepted then cleaned.settle id raw accepted
  else (cleaned.recordStepFailure .outcomeUncertain).settle id raw accepted

def stepJob (id : StepId) : World Recovery :=
  match world.steps id with
  | some { phase := .observed raw accepted (jobs + 1), listening } =>
      { world.setStep id { phase := .observed raw accepted jobs, listening } with queue := world.queue ++ [.step id] }
  | some { phase := .observed raw accepted 0, .. } => world.settleStep id raw accepted
  | _ => world

def job : Job → World Recovery
  | .loop => world.loopJob
  | .step id => world.stepJob id

end World

/-! ### Events -/

inductive Event (Recovery : Type) where
  | start
  | stop
  | runStep (signal : Bool)
  | timer
  | runnerReturns (id : StepId) (raw : Raw Recovery)
  | observe (id : StepId) (accepted : Bool)
  | abort (id : StepId)
  | turn

/-- The jobs between the end of the observer and `settleStep`. -/
def observerJobs : Nat := 3

/-- One event; none for a call that is refused and for what cannot happen. -/
def World.step (world : World Recovery) : Event Recovery → Option (World Recovery)
  | .start =>
      match world.state with
      | .running => some world
      | .idle => some { world with state := .running, completion := .pending }.enterLoop
      | _ => none
  | .stop =>
      match world.state with
      | .idle => some { world with state := .stopped, completion := .settled (.ok ()), stopCalled := true }
      | .running => some { world with state := .stopping, stopCalled := true }.finish
      | _ => some { world with stopCalled := true }
  | .runStep signal =>
      if world.state = .running then
        let (begun, id) := world.beginStep signal
        some { begun with callers := id :: begun.callers }
      else none
  | .timer => if world.timer then some world.finish else none
  | .runnerReturns id raw =>
      match world.steps id with
      | some { phase := .calling, listening } => some (world.setStep id { phase := .returned raw, listening })
      | _ => none
  | .observe id accepted =>
      match world.steps id with
      | some { phase := .returned raw, listening } =>
          some { world.setStep id { phase := .observed raw accepted observerJobs, listening } with
            queue := world.queue ++ [.step id] }
      | _ => none
  | .abort id =>
      match world.steps id with
      | some { phase, listening := true } => some (world.setStep id { phase, listening := false })
      | _ => none
  | .turn =>
      match world.queue with
      | [] => none
      | job :: queue => some ({ world with queue }.job job)

/-- The runs of one scheduler. -/
def scheduler (Recovery : Type) : System (World Recovery) (Event Recovery) where
  start world := world = .initial
  step world events next := ∃ event, world.step event = some next ∧ events = [event]

end PortableCodex.RecoveryScheduler
