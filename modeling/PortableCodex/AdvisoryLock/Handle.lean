import Mathlib.Logic.Function.Basic
import PortableCodex.ProviderState.Values
import PortableCodex.Traces.Run

/-!
The handle of an advisory lock and the process that holds the lock.

The handle of `acquireAdvisoryLock` is a state machine. A call runs up to its first `await` in one
step; what it waits for is a step of its own, and so is every line, timer, write failure and exit. The
holder performs the renames it was sent and answers; its answers may come late or never, between lines
that are none. A promise is settled by an entry of `settlements`, and nothing else keeps a second entry
away than the code itself.
-/

namespace PortableCodex.AdvisoryLock

open Js ProviderState

/-! ### Errors -/

inductive ErrorCode where
  | invalidRenameRequest
  | lockLost
  | lockReplaced
  | lockCommitUncertain
  | destinationChanged
  | lockCommitFailed
deriving DecidableEq

inductive RenameOutcome where
  | notCommitted
deriving DecidableEq

/-- What `cleanup` throws: the error of stopping the process, or of the references or the handle that
could not be closed. -/
inductive CleanupError where
  | stopProcess
  | references
  | handle
deriving DecidableEq

/-- An `AdvisoryLockError`. -/
structure LockError where
  code : ErrorCode
  message : String
  renameOutcome : Option RenameOutcome := none
  cause : Option CleanupError := none
deriving DecidableEq

def withCause (error : LockError) (cause : Option CleanupError) : LockError :=
  if error.cause = none then { error with cause } else error

/-- How a promise settles; reading the identity of the lock path may throw any error. -/
inductive Outcome where
  | fulfilled
  | rejected (error : LockError)
  | threw
deriving DecidableEq

def invalidRenameRequest : LockError where
  code := .invalidRenameRequest
  message := "rename destination precondition is invalid"
  renameOutcome := some .notCommitted

def lockWasLost (code : ErrorCode) : LockError where
  code := code
  message := "authority advisory lock was lost"

def lockReplaced (renameOutcome : Option RenameOutcome) : LockError where
  code := .lockReplaced
  message := "authority lock path changed"
  renameOutcome := renameOutcome

def uncertainCommit (message : String) : LockError where
  code := .lockCommitUncertain
  message := message

/-! ### Renames -/

inductive ExpectedDestination where
  | absent
  | present (dev ino : JsString)
deriving DecidableEq

structure Rename where
  source : JsString
  destination : JsString
  expectedDestination : Option ExpectedDestination
deriving DecidableEq

/-- The object of an expected destination: its keys, and what they say. -/
def readExpectedDestination (value : JsValue) : Option ExpectedDestination := do
  match value with
  | .object members =>
      ensure (members.map Prod.fst).Nodup
      match getMember members (js "kind"), getMember members (js "dev"), getMember members (js "ino") with
      | some (.string kind), none, none =>
          ensure (kind = js "absent" ∧ members.length = 1)
          some .absent
      | some (.string kind), some (.string dev), some (.string ino) =>
          ensure (kind = js "present" ∧ members.length = 3 ∧ IsDecimal dev ∧ IsDecimal ino)
          some (.present dev ino)
      | _, _, _ => none
  | _ => none

/-- `normalizeExpectedDestination`; an undefined one stays undefined. -/
def normalizeExpectedDestination : Option JsValue → Option (Option ExpectedDestination)
  | none => some none
  | some value => (readExpectedDestination value).map some

/-! ### The holder -/

abbrev CommandId := Nat
abbrev CallId := Nat

/-- A rename command; the call it belongs to is not on the wire. -/
structure Command where
  id : CommandId
  call : CallId
  rename : Rename
deriving DecidableEq

/-- An answer of the holder that says whether it performed the rename. -/
inductive Answer where
  | ok
  | lockReplaced
  | destinationChanged
deriving DecidableEq

structure Holder where
  /-- The commands written to its input. -/
  written : List Command
  performed : List CommandId
  answers : List (CommandId × Answer)
  alive : Bool

/-- The code of a response that is not ok. -/
inductive ResponseCode where
  | lockReplaced
  | lockCommitUncertain
  | destinationChanged
  | other (code : String)
deriving DecidableEq

/-- A line of the holder's output: JSON or not, with an id or without. -/
inductive Line where
  | malformed
  | response (id : Option CommandId) (ok : Bool) (code : ResponseCode)
deriving DecidableEq

/-- The answer that a line passes on. -/
def Line.answer : Line → Option (CommandId × Answer)
  | .response (some id) true _ => some (id, .ok)
  | .response (some id) false .lockReplaced => some (id, .lockReplaced)
  | .response (some id) false .destinationChanged => some (id, .destinationChanged)
  | _ => none

/-! ### Quiescence -/

/-- A promise of `beginQuiescence`: settled, or that of an attempt. -/
inductive Awaited where
  | settled (cleanupError : Option CleanupError)
  | attempt (number : Nat)
deriving DecidableEq

/-- Who asked for quiescence first; it chooses the messages. -/
inductive Reason where
  | uncertain
  | unexpectedLoss
  | replaced
  | release
deriving DecidableEq

def Reason.lossMessage : Reason → String
  | .uncertain => "authority advisory lock is unavailable"
  | .unexpectedLoss => "authority advisory lock process exited unexpectedly"
  | .replaced => "authority advisory lock path changed"
  | .release => "authority advisory lock is unavailable"

def Reason.pendingMessage : Reason → String
  | .uncertain => "lock holder quiesced before confirming the atomic rename"
  | .unexpectedLoss => "lock holder exited before confirming the atomic rename"
  | .replaced => "authority lock path changed before confirming the atomic rename"
  | .release => "lock released before confirming the atomic rename"

/-- Where an attempt stands; the last phase ends when its promise is forgotten. -/
inductive AttemptPhase where
  | stopping
  | closing (stopError disposalError : Bool)
  | finished
deriving DecidableEq

structure Attempt where
  reason : Reason
  phase : AttemptPhase
deriving DecidableEq

structure Quiescence where
  unavailable : Bool
  lossSettled : Bool
  quiescenceAttempted : Bool
  quiescenceError : Option CleanupError
  quiescenceInFlight : Option Attempt
  quiescenceSucceeded : Bool
  stopSucceeded : Bool
  referencesDisposed : Bool
  closed : Bool
  /-- What the attempts so far have resolved to; the one in flight comes next. -/
  results : List (Option CleanupError)
  loss : Option LockError

namespace Quiescence

/-- The promise of the attempt in flight. -/
def inFlight (q : Quiescence) : Option Awaited :=
  match q.quiescenceInFlight with
  | none => none
  | some { phase := .finished, .. } => some (.attempt (q.results.length - 1))
  | some _ => some (.attempt q.results.length)

def beginQuiescence (q : Quiescence) (reason : Reason) (retry : Bool) : Quiescence × Awaited :=
  let q := { q with unavailable := true }
  if q.quiescenceSucceeded then (q, .settled none)
  else
    match q.inFlight with
    | some awaited => (q, awaited)
    | none =>
        if q.quiescenceAttempted && !retry then (q, .settled q.quiescenceError)
        else
          ({ q with quiescenceAttempted := true, quiescenceInFlight := some { reason, phase := .stopping } },
            .attempt q.results.length)

def currentQuiescence (q : Quiescence) : Option Awaited :=
  match q.inFlight with
  | some awaited => some awaited
  | none => if q.quiescenceAttempted then some (.settled q.quiescenceError) else none

/-- What a promise has resolved to. -/
def resolved (q : Quiescence) : Awaited → Option (Option CleanupError)
  | .settled cleanupError => some cleanupError
  | .attempt number => q.results[number]?

/-- `stopProcessGroup` and `disposeReferences` come back. -/
def stopped (q : Quiescence) (attempt : Attempt) (stopFails disposalFails : Bool) : Quiescence :=
  let stopError := !q.stopSucceeded && stopFails
  let disposalError := !q.referencesDisposed && disposalFails
  { q with
    stopSucceeded := !stopError
    referencesDisposed := !disposalError
    quiescenceInFlight := some { attempt with phase := .closing stopError disposalError } }

/-- The error that `cleanup` throws. -/
def cleanupError (stopError disposalError closeError : Bool) : Option CleanupError :=
  if stopError then some .stopProcess
  else if disposalError then some .references
  else if closeError then some .handle
  else none

/-- `closeHandle` comes back, and the attempt is over but for `settleQuiescence`. -/
def closeReturned (q : Quiescence) (attempt : Attempt) (stopError disposalError closeFails : Bool) :
    Quiescence × Option CleanupError :=
  let closeError := !q.closed && closeFails
  let cleanupError := cleanupError stopError disposalError closeError
  ({ q with
      closed := !closeError
      quiescenceSucceeded := q.quiescenceSucceeded || cleanupError.isNone
      quiescenceError := cleanupError
      quiescenceInFlight := some { attempt with phase := .finished }
      results := q.results ++ [cleanupError] }, cleanupError)

end Quiescence

/-! ### The handle -/

inductive CallKind where
  | assertHeld
  | rename (request : Rename)
  /-- A rename whose precondition is refused. -/
  | invalidRename
deriving DecidableEq

inductive CallState where
  /-- It waits for `assertLockPathIdentity`. -/
  | checking
  /-- It throws the error when the promise has resolved. -/
  | rejecting (awaited : Awaited) (error : LockError)
  /-- Its command is written and pending. -/
  | sent (id : CommandId)
  | done
deriving DecidableEq

structure Call where
  kind : CallKind
  state : CallState
deriving DecidableEq

/-- What `assertLockPathIdentity` comes to. -/
inductive IdentityCheck where
  | current
  | replaced
  | failed
deriving DecidableEq

inductive ReleasePhase where
  | awaiting (awaited : Awaited)
  | finished
deriving DecidableEq

structure Handle where
  quiescence : Quiescence
  /-- `child.exitCode !== null || child.signalCode !== null` -/
  exited : Bool
  released : Bool
  releaseInFlight : Option ReleasePhase
  nextCommandId : CommandId
  pendingCommands : List (CommandId × CallId)
  /-- The timers that are armed. -/
  timers : List (CommandId × CallId)
  calls : CallId → Option Call
  nextCall : CallId
  settlements : List (CallId × Outcome)
  holder : Holder

namespace Handle

variable (s : Handle)

/-- The handle after the lock was acquired. -/
def acquired : Handle where
  quiescence := {
    unavailable := false, lossSettled := false, quiescenceAttempted := false, quiescenceError := none
    quiescenceInFlight := none, quiescenceSucceeded := false, stopSucceeded := false
    referencesDisposed := false, closed := false, results := [], loss := none }
  exited := false
  released := false
  releaseInFlight := none
  nextCommandId := 1
  pendingCommands := []
  timers := []
  calls := fun _ => none
  nextCall := 0
  settlements := []
  holder := { written := [], performed := [], answers := [], alive := true }

def withQuiescence (quiescence : Quiescence) : Handle := { s with quiescence }

/-- A call goes on in another state. -/
def moveTo (c : CallId) (state : CallState) : Handle :=
  { s with calls := Function.update s.calls c ((s.calls c).map fun call => { call with state }) }

/-- The promise of a call is resolved or rejected. -/
def settle (c : CallId) (outcome : Outcome) : Handle :=
  let settled := s.moveTo c .done
  { settled with settlements := s.settlements ++ [(c, outcome)] }

/-- `pendingCommands.delete(id)` and `clearTimeout(timer)` -/
def removePending (id : CommandId) : Handle :=
  { s with
    pendingCommands := s.pendingCommands.filter fun entry => entry.1 ≠ id
    timers := s.timers.filter fun entry => entry.1 ≠ id }

def beginQuiescence (reason : Reason) (retry : Bool) : Handle × Awaited :=
  let (quiescence, awaited) := s.quiescence.beginQuiescence reason retry
  (s.withQuiescence quiescence, awaited)

/-- The call throws the error when the quiescence that it begins is over: `quiesceUncertainCommit` and
`failLockReplacement`. -/
def quiesceAndReject (c : CallId) (reason : Reason) (error : LockError) : Handle :=
  let (quiescing, awaited) := s.beginQuiescence reason false
  quiescing.moveTo c (.rejecting awaited error)

def rejectPendingCommands (message : String) (cause : Option CleanupError) : Handle :=
  s.pendingCommands.foldl
    (fun s entry => s.settle entry.2 (.rejected (withCause (uncertainCommit message) cause)))
    { s with pendingCommands := [], timers := [] }

def settleQuiescence (cleanupError : Option CleanupError) (reason : Reason) : Handle :=
  if s.quiescence.lossSettled then s
  else
    let loss : LockError := { code := .lockLost, message := reason.lossMessage }
    let quiescence := { s.quiescence with
      lossSettled := true
      loss := some (withCause loss cleanupError) }
    (s.withQuiescence quiescence).rejectPendingCommands reason.pendingMessage cleanupError

/-- The synchronous check of `assertHeld` and `renameWhileHeld`: the promise to wait for if the lock is
lost. -/
def observeLoss : Handle × Option Awaited :=
  if !s.quiescence.unavailable && s.exited then
    let (s, awaited) := s.beginQuiescence .unexpectedLoss false
    (s, some awaited)
  else (s, s.quiescence.currentQuiescence)

def lost : Bool := s.quiescence.unavailable || s.released || s.exited

/-- The check by a call: it rejects with the error, or goes on. -/
def whileHeld (c : CallId) (error : LockError) (goOn : Handle → Handle) : Handle :=
  let (s, lossSettlement) := s.observeLoss
  if s.lost then s.moveTo c (.rejecting (lossSettlement.getD (.settled none)) error)
  else goOn s

/-! ### Calls -/

/-- A new call. -/
def newCall (kind : CallKind) : Handle :=
  { s with
    calls := Function.update s.calls s.nextCall (some { kind, state := .checking })
    nextCall := s.nextCall + 1 }

def assertHeld : Handle := (s.newCall .assertHeld).whileHeld s.nextCall (lockWasLost .lockLost) id

def renameWhileHeld (source destination : JsString) (expectedDestination : Option JsValue) : Handle :=
  match normalizeExpectedDestination expectedDestination with
  | none => (s.newCall .invalidRename).settle s.nextCall (.rejected invalidRenameRequest)
  | some expectedDestination =>
      (s.newCall (.rename { source, destination, expectedDestination })).whileHeld s.nextCall
        (lockWasLost .lockCommitUncertain) id

/-- The command of a call is written, with its timer. -/
def send (c : CallId) (rename : Rename) : Handle :=
  let id := s.nextCommandId
  let sent : Handle := { s with
    nextCommandId := id + 1
    pendingCommands := s.pendingCommands ++ [(id, c)]
    timers := s.timers ++ [(id, c)]
    holder := { s.holder with written := s.holder.written ++ [{ id, call := c, rename }] } }
  sent.moveTo c (.sent id)

/-- A call goes on behind `assertLockPathIdentity`. -/
def identityChecked (c : CallId) (check : IdentityCheck) : Option Handle :=
  match s.calls c with
  | some { kind := .assertHeld, state := .checking } =>
      match check with
      | .current => some (s.settle c .fulfilled)
      | .replaced => some (s.quiesceAndReject c .replaced (lockReplaced none))
      | .failed => some (s.settle c .threw)
  | some { kind := .rename request, state := .checking } =>
      match check with
      | .current =>
          some (s.whileHeld c (lockWasLost .lockCommitUncertain) fun s => s.send c request)
      | .replaced => some (s.quiesceAndReject c .replaced (lockReplaced (some .notCommitted)))
      | .failed => some (s.settle c .threw)
  | _ => none

/-- A call that waits for quiescence throws. -/
def quiesced (c : CallId) : Option Handle :=
  match s.calls c with
  | some { state := .rejecting awaited error, .. } =>
      (s.quiescence.resolved awaited).map fun cleanupError =>
        s.settle c (.rejected (withCause error cleanupError))
  | _ => none

def waitForLoss : Handle :=
  if !s.quiescence.unavailable && s.exited then (s.beginQuiescence .unexpectedLoss false).1 else s

def release : Handle :=
  if s.released then s
  else
    match s.releaseInFlight with
    | some _ => s
    | none =>
        let (s, awaited) := s.beginQuiescence .release true
        { s with releaseInFlight := some (.awaiting awaited) }

/-- `release` goes on behind its quiescence. -/
def releaseQuiesced : Option Handle :=
  match s.releaseInFlight with
  | some (.awaiting awaited) =>
      (s.quiescence.resolved awaited).map fun cleanupError =>
        { s with releaseInFlight := some .finished, released := s.released || cleanupError.isNone }
  | _ => none

/-! ### What happens to the handle -/

/-- A line while the handle is available. -/
def respond (id : CommandId) (ok : Bool) (code : ResponseCode) : Handle :=
  match s.pendingCommands.find? fun entry => entry.1 = id with
  | none => s
  | some (_, c) =>
      let s := s.removePending id
      if ok then s.settle c .fulfilled
      else
        match code with
        | .lockReplaced => s.quiesceAndReject c .replaced (lockReplaced (some .notCommitted))
        | .lockCommitUncertain =>
            s.quiesceAndReject c .uncertain
              (uncertainCommit "lock holder detected a lock-path change after the atomic rename")
        | .destinationChanged =>
            s.settle c (.rejected {
              code := .destinationChanged
              message := "rename destination changed before the atomic rename"
              renameOutcome := some .notCommitted })
        | .other code =>
            s.settle c (.rejected {
              code := .lockCommitFailed
              message := "lock holder rename failed (" ++ code ++ ")" })

def lineRead (line : Line) : Handle :=
  if s.quiescence.unavailable then s
  else
    match line with
    | .response (some id) ok code => s.respond id ok code
    | _ => s

/-- The timer of a command fires. -/
def timedOut (id : CommandId) : Option Handle :=
  match s.timers.find? fun entry => entry.1 = id with
  | none => none
  | some (_, c) =>
      some ((s.removePending id).quiesceAndReject c .uncertain
        (uncertainCommit "lock holder did not confirm the atomic rename"))

/-- `rejectWrite` of a command. -/
def writeFailed (id : CommandId) : Handle :=
  match s.pendingCommands.find? fun entry => entry.1 = id with
  | none => s
  | some (_, c) =>
      (s.removePending id).quiesceAndReject c .uncertain
        (uncertainCommit "lock holder command channel failed before confirming rename")

/-- The exit event of the child. -/
def exitEvent : Handle := (s.beginQuiescence .unexpectedLoss false).1

def stopReturned (stopFails disposalFails : Bool) : Option Handle :=
  match s.quiescence.quiescenceInFlight with
  | some { reason, phase := .stopping } =>
      some (s.withQuiescence (s.quiescence.stopped { reason, phase := .stopping } stopFails disposalFails))
  | _ => none

def closeReturned (closeFails : Bool) : Option Handle :=
  match s.quiescence.quiescenceInFlight with
  | some { reason, phase := .closing stopError disposalError } =>
      let (quiescence, cleanupError) := s.quiescence.closeReturned
        { reason, phase := .closing stopError disposalError } stopError disposalError closeFails
      some ((s.withQuiescence quiescence).settleQuiescence cleanupError reason)
  | _ => none

/-- The promise of a finished attempt is forgotten. -/
def quiescenceForgotten : Option Handle :=
  match s.quiescence.quiescenceInFlight with
  | some { phase := .finished, .. } =>
      some (s.withQuiescence { s.quiescence with quiescenceInFlight := none })
  | _ => none

def releaseForgotten : Option Handle :=
  match s.releaseInFlight with
  | some .finished => some { s with releaseInFlight := none }
  | _ => none

/-! ### The holder -/

/-- A command that is written and not answered. -/
def awaitsAnswer (id : CommandId) : Prop :=
  s.holder.alive = true ∧ id ∈ s.holder.written.map (·.id) ∧ id ∉ s.holder.answers.map Prod.fst

instance (id : CommandId) : Decidable (s.awaitsAnswer id) := inferInstanceAs (Decidable (_ ∧ _ ∧ _))

def perform (id : CommandId) : Option Handle :=
  if s.awaitsAnswer id ∧ id ∉ s.holder.performed then
    some { s with holder := { s.holder with performed := s.holder.performed ++ [id] } }
  else none

/-- The holder is ok with what it performed, and otherwise only with what it did not. -/
def answer (id : CommandId) (answer : Answer) : Option Handle :=
  if s.awaitsAnswer id ∧ (answer = .ok ↔ id ∈ s.holder.performed) then
    some { s with holder := { s.holder with answers := s.holder.answers ++ [(id, answer)] } }
  else none

/-- A line that arrives passes on an answer, or none. -/
def lineArrives (line : Line) : Option Handle :=
  if ∀ passedOn ∈ line.answer.toList, passedOn ∈ s.holder.answers then some (s.lineRead line) else none

def childExits : Handle := { s with exited := true, holder := { s.holder with alive := false } }

end Handle

/-! ### Runs -/

inductive Event where
  | assertHeld
  | renameWhileHeld (source destination : JsString) (expectedDestination : Option JsValue)
  | waitForLoss
  | release
  | identityChecked (c : CallId) (check : IdentityCheck)
  | quiesced (c : CallId)
  | releaseQuiesced
  | lineArrives (line : Line)
  | timedOut (id : CommandId)
  | writeFailed (id : CommandId)
  | childExits
  | exitEvent
  | stopReturned (stopFails disposalFails : Bool)
  | closeReturned (closeFails : Bool)
  | quiescenceForgotten
  | releaseForgotten
  | perform (id : CommandId)
  | answer (id : CommandId) (answer : Answer)

/-- The handle after an event, if the event can happen. -/
def step (s : Handle) : Event → Option Handle
  | .assertHeld => some s.assertHeld
  | .renameWhileHeld source destination expectedDestination =>
      some (s.renameWhileHeld source destination expectedDestination)
  | .waitForLoss => some s.waitForLoss
  | .release => some s.release
  | .identityChecked c check => s.identityChecked c check
  | .quiesced c => s.quiesced c
  | .releaseQuiesced => s.releaseQuiesced
  | .lineArrives line => s.lineArrives line
  | .timedOut id => s.timedOut id
  | .writeFailed id => some (s.writeFailed id)
  | .childExits => some s.childExits
  | .exitEvent => if s.exited then some s.exitEvent else none
  | .stopReturned stopFails disposalFails => s.stopReturned stopFails disposalFails
  | .closeReturned closeFails => s.closeReturned closeFails
  | .quiescenceForgotten => s.quiescenceForgotten
  | .releaseForgotten => s.releaseForgotten
  | .perform id => s.perform id
  | .answer id answer => s.answer id answer

/-- The runs of a handle from a state on. -/
def lifecycle (start : Handle) : Traces.System Handle Event where
  start s := s = start
  step s events next := ∃ event, step s event = some next ∧ events = [event]

end PortableCodex.AdvisoryLock
