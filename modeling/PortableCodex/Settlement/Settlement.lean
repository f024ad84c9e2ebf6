import Mathlib.Logic.Function.Basic
import PortableCodex.Traces.Run

/-!
The settlement of physical collaborators: invocations with a deadline and a grace, and their stop.

JavaScript code runs to its end before anything else does, but it calls foreign code in three places: the
start callback, the abort listeners and `onFatal`. Foreign code can call `invoke` and `stop` again and let
any time pass. `stack` is the code that is still to be run, the code on top first; foreign code runs while
it is on top. Timers fire and providers are observed only when nothing is left to be run. Timer functions
and the clock do not throw, and `abort` does not either, so the error paths of their failures are left out.
-/

namespace PortableCodex.Settlement

abbrev InvocationId := Nat
abbrev Milliseconds := Nat

inductive ErrorCode where
  | noSettlement
  | lateSettlement
  | rejected
  | outcomeUncertain
deriving DecidableEq

inductive Phase where
  | accepting
  | draining
  | quiescing
  | breached
  | done
deriving DecidableEq

inductive Lifecycle where
  | running
  | stopping
  | stopped
  | failed
deriving DecidableEq

inductive Trigger where
  | deadline
  | stop
  | contract
deriving DecidableEq

inductive PromiseState (Value : Type) where
  | pending
  | fulfilled (value : Value)
  | rejected (code : ErrorCode)
deriving DecidableEq

/-- A promise is settled once. -/
def PromiseState.settle {Value : Type} (promise settled : PromiseState Value) : PromiseState Value :=
  match promise with
  | .pending => settled
  | _ => promise

/-- The promise that a start callback has returned. -/
inductive Provider (Value : Type) where
  | none
  | pending
  | fulfilled (value : Value)
  | rejected
deriving DecidableEq

def Provider.isSettled {Value : Type} : Provider Value → Bool
  | .fulfilled _ | .rejected => true
  | _ => false

def Provider.isNone {Value : Type} : Provider Value → Bool
  | .none => true
  | _ => false

structure Record (Value : Type) where
  phase : Phase
  trigger : Trigger
  aborted : Bool
  deadlineAt : Milliseconds
  deadlineTimer : Bool
  graceExpiresAt : Milliseconds
  graceTimer : Bool
  providerPending : Bool
  quiescenceCode : Option ErrorCode
  promise : PromiseState Value
  /-- The record is in the active set. -/
  active : Bool
  provider : Provider Value
  /-- The provider was observed. -/
  observed : Bool
  /-- The provider settled while the record was accepting and before its deadline. -/
  inTime : Bool
  /-- The invocation has breached. -/
  breach : Bool
  fatalCalls : Nat
deriving DecidableEq

/-- Code that is still to be run. -/
inductive Task where
  /-- The start callback runs. -/
  | start (r : InvocationId)
  /-- The abort listeners run. -/
  | abort (r : InvocationId)
  /-- `onFatal` runs. -/
  | fatal (r : InvocationId) (code : ErrorCode) (quiescing : Bool)
  | invokeFatal (r : InvocationId) (code : ErrorCode) (quiescing : Bool)
  | beginGrace (r : InvocationId) (trigger : Trigger) (explicitGraceExpiresAt : Option Milliseconds)
  | armDeadlineTimer (r : InvocationId)
  | armGraceTimer (r : InvocationId)
  /-- The abort in `beginGrace`. A second abort of a controller calls no listeners. -/
  | abortGrace (r : InvocationId)
  | enforceGraceExpiry (r : InvocationId)
  | enforceElapsedBoundaries (r : InvocationId)
  | breachRecord (r : InvocationId) (code : ErrorCode)
  /-- The end of `rejectContractViolation`. -/
  | contractBreach (r : InvocationId)
  /-- The end of `onFulfilled` and `onRejected`. -/
  | settle (r : InvocationId)
  /-- The loop of `stop`. -/
  | abortActive (records : List InvocationId) (stopGraceExpiresAt : Milliseconds)
  | maybeCompleteStop
deriving DecidableEq

structure State (Value : Type) where
  /-- `providerSettlementRequired` -/
  quiescent : Bool
  deadlineMilliseconds : Milliseconds
  settlementGraceMilliseconds : Milliseconds
  now : Milliseconds
  lifecycle : Lifecycle
  records : InvocationId → Option (Record Value)
  nextRecord : InvocationId
  terminalFailure : Bool
  terminalFailureCode : Option ErrorCode
  fatalCallbacksInFlight : Nat
  stop : Option (PromiseState Unit)
  stack : List Task
  /-- A start callback was called behind a stop or a breach. -/
  lateStart : Bool

namespace State

variable {Value : Type} (s : State Value)

def initial (quiescent : Bool) (deadlineMilliseconds settlementGraceMilliseconds : Milliseconds) : State Value where
  quiescent := quiescent
  deadlineMilliseconds := deadlineMilliseconds
  settlementGraceMilliseconds := settlementGraceMilliseconds
  now := 0
  lifecycle := .running
  records := fun _ => none
  nextRecord := 0
  terminalFailure := false
  terminalFailureCode := none
  fatalCallbacksInFlight := 0
  stop := none
  stack := []
  lateStart := false

def setRecord (r : InvocationId) (record : Record Value) : State Value :=
  { s with records := Function.update s.records r (some record) }

/-- The code runs before the rest. -/
def push (tasks : List Task) : State Value := { s with stack := tasks ++ s.stack }

def activeRecords : List InvocationId :=
  (List.range s.nextRecord).filter fun r => (s.records r).any (·.active)

/-- `maybeCompleteStop` -/
def maybeCompleteStop : State Value :=
  match s.stop with
  | none => s
  | some stop =>
      if s.activeRecords ≠ [] ∨ s.fatalCallbacksInFlight ≠ 0 then s
      else if s.terminalFailure then
        { s with
          lifecycle := .failed
          stop := some (stop.settle (.rejected (s.terminalFailureCode.getD .outcomeUncertain))) }
      else { s with lifecycle := .stopped, stop := some (stop.settle (.fulfilled ())) }

/-- `finishRecord`, with the promise as it is settled. -/
def finishRecord (r : InvocationId) (record : Record Value) (settled : PromiseState Value) : State Value :=
  let finished := s.setRecord r { record with
    deadlineTimer := false
    graceTimer := false
    phase := .done
    active := false
    promise := record.promise.settle settled }
  finished.push [.maybeCompleteStop]

/-- `breachRecord` and `quiesceRecord` up to their abort. -/
def breachRecord (r : InvocationId) (record : Record Value) (code : ErrorCode) : State Value :=
  let quiescing := s.quiescent && record.providerPending
  if record.phase = .done ∨ record.phase = .breached ∨ quiescing = true ∧ record.phase = .quiescing then s
  else
    let breached := s.setRecord r { record with
      deadlineTimer := false
      graceTimer := false
      phase := if quiescing then .quiescing else .breached
      active := quiescing
      aborted := true
      breach := true }
    let failed := { breached with
      terminalFailure := true
      lifecycle := if s.lifecycle = Lifecycle.running then Lifecycle.failed else s.lifecycle }
    failed.push (if record.aborted then [.invokeFatal r code quiescing] else [.abort r, .invokeFatal r code quiescing])

/-- A failure code of the stop; an uncertain one takes the place of others. -/
def failWith (code : ErrorCode) : State Value :=
  { s with
    terminalFailureCode :=
      if s.terminalFailureCode = none ∨ code = .outcomeUncertain then some code else s.terminalFailureCode }

/-- `invokeFatal` up to the call of `onFatal`. -/
def invokeFatal (r : InvocationId) (record : Record Value) (code : ErrorCode) (quiescing : Bool) : State Value :=
  let failed := (s.setRecord r { record with
    quiescenceCode := if quiescing then some code else record.quiescenceCode
    fatalCalls := record.fatalCalls + 1 }).failWith code
  let calling := { failed with fatalCallbacksInFlight := s.fatalCallbacksInFlight + 1 }
  calling.push [.fatal r code quiescing]

/-- `onFatal` has returned, or thrown. It succeeds when it returns undefined. -/
def returnFatal (succeeded : Bool) : State Value :=
  { s with
    fatalCallbacksInFlight := s.fatalCallbacksInFlight - 1
    terminalFailureCode := if succeeded then s.terminalFailureCode else some .outcomeUncertain }

/-- The end of `breachRecord` and `quiesceRecord`. -/
def endFatal (r : InvocationId) (record : Record Value) (code : ErrorCode) (quiescing succeeded : Bool) : State Value :=
  if quiescing then
    (s.returnFatal succeeded).setRecord r { record with
      quiescenceCode := if succeeded then record.quiescenceCode else some .outcomeUncertain }
  else
    let rejected := (s.returnFatal succeeded).setRecord r { record with
      promise := record.promise.settle (.rejected code) }
    rejected.push [.maybeCompleteStop]

def beginGrace (r : InvocationId) (record : Record Value) (trigger : Trigger)
    (explicitGraceExpiresAt : Option Milliseconds) : State Value :=
  if record.phase = .accepting then
    let expires := match explicitGraceExpiresAt, trigger with
      | some expires, _ => expires
      | none, .deadline => record.deadlineAt + s.settlementGraceMilliseconds
      | none, _ => s.now + s.settlementGraceMilliseconds
    let draining := s.setRecord r { record with
      phase := .draining
      trigger
      deadlineTimer := false
      graceExpiresAt := expires }
    draining.push [.armGraceTimer r, .abortGrace r]
  else s

def armDeadlineTimer (r : InvocationId) (record : Record Value) : State Value :=
  if record.phase = .accepting then
    if record.deadlineAt ≤ s.now then s.push [.beginGrace r .deadline none]
    else s.setRecord r { record with deadlineTimer := true }
  else s

def armGraceTimer (r : InvocationId) (record : Record Value) : State Value :=
  if record.phase = .draining then
    if record.graceExpiresAt ≤ s.now then s.push [.breachRecord r .noSettlement]
    else s.setRecord r { record with graceTimer := true }
  else s

def enforceGraceExpiry (r : InvocationId) (record : Record Value) : State Value :=
  if record.phase = .draining ∧ record.graceExpiresAt ≤ s.now then s.push [.breachRecord r .noSettlement] else s

def enforceElapsedBoundaries (r : InvocationId) (record : Record Value) : State Value :=
  if record.phase = .accepting ∧ record.deadlineAt ≤ s.now then
    s.push [.beginGrace r .deadline none, .enforceGraceExpiry r]
  else s.enforceGraceExpiry r record

/-- How a settled provider ends its record. -/
def settle (r : InvocationId) (record : Record Value) : State Value :=
  let settled := { record with providerPending := false }
  match record.phase, record.provider with
  | .done, _ | .breached, _ => s
  | .quiescing, _ => s.finishRecord r settled (.rejected (record.quiescenceCode.getD .noSettlement))
  | .draining, _ => s.finishRecord r settled (.rejected .lateSettlement)
  | .accepting, .fulfilled value => s.finishRecord r settled (.fulfilled value)
  | .accepting, _ => s.finishRecord r settled (.rejected .rejected)

/-- `onFulfilled` and `onRejected`, with `enforceElapsedBoundaries` in place. -/
def observe (r : InvocationId) (record : Record Value) : State Value :=
  let observed := s.setRecord r { record with observed := true }
  if record.phase = .done ∨ record.phase = .breached then observed
  else if record.phase = .accepting then
    if s.now < record.deadlineAt then observed.settle r { record with observed := true }
    else
      let elapsed := observed.push [.enforceGraceExpiry r, .settle r]
      elapsed.beginGrace r { record with observed := true } .deadline none
  else observed.push [.enforceGraceExpiry r, .settle r]

/-- The code on top is run. Foreign code is not. -/
def run : Task → Option (State Value)
  | .start _ | .abort _ | .fatal _ _ _ => none
  | .invokeFatal r code quiescing => (s.records r).map (s.invokeFatal r · code quiescing)
  | .beginGrace r trigger explicit => (s.records r).map (s.beginGrace r · trigger explicit)
  | .armDeadlineTimer r => (s.records r).map (s.armDeadlineTimer r)
  | .armGraceTimer r => (s.records r).map (s.armGraceTimer r)
  | .abortGrace r => (s.records r).map fun record =>
      if record.phase = .draining then
        (s.setRecord r { record with aborted := true }).push [.abort r, .enforceGraceExpiry r]
      else s
  | .enforceGraceExpiry r => (s.records r).map (s.enforceGraceExpiry r)
  | .enforceElapsedBoundaries r => (s.records r).map (s.enforceElapsedBoundaries r)
  | .breachRecord r code => (s.records r).map (s.breachRecord r · code)
  | .contractBreach r => (s.records r).map fun record =>
      if record.phase = .draining then s.push [.breachRecord r .noSettlement] else s
  | .settle r => (s.records r).map (s.settle r)
  | .abortActive [] _ => some s
  | .abortActive (r :: records) expires =>
      some (s.push [.enforceElapsedBoundaries r, .beginGrace r .stop (some expires), .abortActive records expires])
  | .maybeCompleteStop => some s.maybeCompleteStop

def Task.isForeign : Task → Bool
  | .start _ | .abort _ | .fatal _ _ _ => true
  | _ => false

/-- Other code can be called: by foreign code, or when nothing is left to be run. -/
def isOpen : Bool := s.stack.head?.all Task.isForeign

/-- The record of an invocation. -/
def newRecord (deadlineTimer : Bool) : Record Value where
  phase := .accepting
  trigger := .deadline
  aborted := false
  deadlineAt := s.now + s.deadlineMilliseconds
  deadlineTimer := deadlineTimer
  graceExpiresAt := 0
  graceTimer := false
  providerPending := false
  quiescenceCode := none
  promise := .pending
  active := true
  provider := .none
  observed := false
  inTime := false
  breach := false
  fatalCalls := 0

/-- `stop` was called, or an invocation has breached. -/
def isLate : Bool := s.stop.isSome || (List.range s.nextRecord).any fun r => (s.records r).any (·.breach)

/-- `invoke`, up to the start callback. The clock may have gone on when it is read again. -/
def invoke (elapsed : Milliseconds) : State Value :=
  if s.lifecycle = .running then
    let later := { s with now := s.now + elapsed, nextRecord := s.nextRecord + 1 }
    if s.deadlineMilliseconds ≤ elapsed then
      (later.setRecord s.nextRecord (s.newRecord false)).push [.beginGrace s.nextRecord .deadline none]
    else
      let started := (later.setRecord s.nextRecord (s.newRecord true)).push [.start s.nextRecord]
      { started with lateStart := s.lateStart || s.isLate }
  else s

def callStop : State Value :=
  match s.stop with
  | some _ => s
  | none =>
      let stopping := { s with
        stop := some .pending
        lifecycle := if s.lifecycle = Lifecycle.failed then Lifecycle.failed else Lifecycle.stopping }
      stopping.push [.abortActive s.activeRecords (s.now + s.settlementGraceMilliseconds), .maybeCompleteStop]

/-- A start callback returns a promise. -/
def accept (r : InvocationId) (record : Record Value) : State Value :=
  (s.setRecord r { record with providerPending := true, provider := .pending }).push [.enforceElapsedBoundaries r]

/-- A start callback throws, or returns anything else. -/
def rejectContractViolation (r : InvocationId) (record : Record Value) : State Value :=
  (s.setRecord r { record with trigger := .contract }).push [.beginGrace r .contract none, .contractBreach r]

end State

inductive Event (Value : Type) where
  | tick (elapsed : Milliseconds)
  | run
  | invoke (elapsed : Milliseconds)
  | stop
  /-- The start callback on top ends, with a promise or without. -/
  | endStart (promise : Bool)
  | endAbort
  | endFatal (succeeded : Bool)
  | deadlineTimer (r : InvocationId)
  | graceTimer (r : InvocationId)
  /-- A provider's promise is settled; none is a rejection. -/
  | provider (r : InvocationId) (value : Option Value)
  | observe (r : InvocationId)

namespace State

variable {Value : Type} (s : State Value)

def step : Event Value → Option (State Value)
  | .tick elapsed => some { s with now := s.now + elapsed }
  | .run =>
      match s.stack with
      | [] => none
      | task :: rest => { s with stack := rest }.run task
  | .invoke elapsed => if s.isOpen then some (s.invoke elapsed) else none
  | .stop => if s.isOpen then some s.callStop else none
  | .endStart promise =>
      match s.stack with
      | .start r :: rest =>
          let returned := { s with stack := rest }
          (s.records r).map (if promise then returned.accept r else returned.rejectContractViolation r)
      | _ => none
  | .endAbort =>
      match s.stack with
      | .abort _ :: rest => some { s with stack := rest }
      | _ => none
  | .endFatal succeeded =>
      match s.stack with
      | .fatal r code quiescing :: rest =>
          let returned := { s with stack := rest }
          (s.records r).map (returned.endFatal r · code quiescing succeeded)
      | _ => none
  | .deadlineTimer r => do
      let record ← s.records r
      if s.stack = [] ∧ record.deadlineTimer then
        let fired := s.setRecord r { record with deadlineTimer := false }
        some (fired.push [.armDeadlineTimer r])
      else none
  | .graceTimer r => do
      let record ← s.records r
      if s.stack = [] ∧ record.graceTimer then
        let fired := s.setRecord r { record with graceTimer := false }
        some (fired.push [.armGraceTimer r])
      else none
  | .provider r value => do
      let record ← s.records r
      match record.provider with
      | .pending =>
          let provider := match value with
            | some value => .fulfilled value
            | none => .rejected
          some (s.setRecord r { record with
            provider
            inTime := record.phase = .accepting ∧ s.now < record.deadlineAt })
      | _ => none
  | .observe r => do
      let record ← s.records r
      if s.stack = [] ∧ record.provider.isSettled ∧ ¬ record.observed then some (s.observe r record) else none

end State

/-- The runs of one settlement. -/
def settlements (Value : Type) (quiescent : Bool) (deadlineMilliseconds settlementGraceMilliseconds : Milliseconds) :
    Traces.System (State Value) (Event Value) where
  start s := s = .initial quiescent deadlineMilliseconds settlementGraceMilliseconds
  step s events next := ∃ event, s.step event = some next ∧ events = [event]

end PortableCodex.Settlement
