import Mathlib.Logic.Function.Basic
import PortableCodex.Js.Text
import PortableCodex.Traces.Run

/-!
The PostgreSQL operation guard, and the server whose advisory locks it takes.

Every call of `runWithLockModeInternal` has a client of its own, and a client is connected to one
backend, so `backend_pid` is the same in all answers of a call. A call that gets no client is left out: it
reports `postgres_operation_guard_outcome_uncertain` and runs nothing. A statement of a call is sent, executed
and answered in steps of their own; its effect may come without its answer. The callback of a call may
probe the lock, call `complete` and settle at any time. A backend may die at any time, and then it has
no locks and fails every statement.
-/

namespace PortableCodex.OperationGuard

/-! ### The server -/

abbrev BackendId := Nat
abbrev CallId := Nat
abbrev LockKey := Int

inductive LockMode where
  | exclusive
  | shared
deriving DecidableEq

/-- Two modes of one key that different backends cannot hold. -/
def LockMode.Conflicts (a b : LockMode) : Prop := a = .exclusive ∨ b = .exclusive

instance (a b : LockMode) : Decidable (a.Conflicts b) := inferInstanceAs (Decidable (_ ∨ _))

structure Lock where
  key : LockKey
  mode : LockMode
deriving DecidableEq

/-- The backends that are alive and the session-level locks of each, as often as it has them. -/
structure Server where
  dead : List BackendId
  locks : List (BackendId × Lock)

namespace Server

variable (server : Server)

def Holds (backend : BackendId) (lock : Lock) : Prop :=
  backend ∉ server.dead ∧ (backend, lock) ∈ server.locks

/-- Another backend has a lock that conflicts. -/
def Denies (backend : BackendId) (lock : Lock) : Prop :=
  ∃ entry ∈ server.locks, entry.1 ≠ backend ∧ entry.2.key = lock.key ∧ entry.2.mode.Conflicts lock.mode

instance (backend : BackendId) (lock : Lock) : Decidable (server.Holds backend lock) :=
  inferInstanceAs (Decidable (_ ∧ _))

instance (backend : BackendId) (lock : Lock) : Decidable (server.Denies backend lock) :=
  inferInstanceAs (Decidable (∃ entry ∈ server.locks, _))

/-- `DISCARD ALL` -/
def reset (backend : BackendId) : Server :=
  { server with locks := server.locks.filter fun entry => entry.1 ≠ backend }

def die (backend : BackendId) : Server :=
  { dead := backend :: server.dead, locks := server.locks.filter fun entry => entry.1 ≠ backend }

end Server

/-- The statements of a guard, and what the server makes of them: its next state, and whether the answer
is the one that is hoped for. -/
inductive Statement where
  | reset
  | tryLock
  | assertHeld
  | unlock
deriving DecidableEq

def Statement.execute (statement : Statement) (server : Server) (backend : BackendId) (lock : Lock) :
    Server × Bool :=
  match statement with
  | .reset => (server.reset backend, true)
  | .tryLock =>
      if server.Denies backend lock then (server, false)
      else ({ server with locks := (backend, lock) :: server.locks }, true)
  | .assertHeld => (server, decide (server.Holds backend lock))
  | .unlock =>
      if server.Holds backend lock then ({ server with locks := server.locks.erase (backend, lock) }, true)
      else (server, false)

/-- A statement on its way: sent, answered, or without an answer to come. -/
inductive Wire where
  | sent
  | answered (ok : Bool)
  | failed
deriving DecidableEq

/-! ### Callbacks -/

/-- A value of the callback; `assertSafeFulfilledValue` accepts the safe ones. -/
structure Value where
  id : Nat
  safe : Bool
deriving DecidableEq

/-- What a callback fulfils with: its own completion carrier, another one, or a value. -/
inductive Fulfilled where
  | carrier
  | foreignCarrier
  | plain (value : Value)
deriving DecidableEq

/-- How a callback settles; a promise that cannot be observed counts as settled at once. -/
inductive Settlement where
  | threw (error : Nat)
  | rejected (error : Nat)
  | fulfilled (value : Fulfilled)
  | unobservable
deriving DecidableEq

/-- `callbackFailed`, `callbackError` and `callbackResult`; a failed check is an error of the guard. -/
inductive CallbackResult where
  | result (value : Value)
  | error (error : Nat)
  | uncertain
deriving DecidableEq

structure Completion where
  /-- The argument of the call that made the carrier. -/
  carrier : Option Value
  protocolFailed : Bool
deriving DecidableEq

/-- `complete(...)` while the callback is open or closed. -/
def Completion.complete (completion : Completion) (callbackOpen : Bool) (completeArgs : List Value) : Completion :=
  match callbackOpen, completeArgs, completion.carrier with
  | true, [value], none => { completion with carrier := some value }
  | _, _, _ => { completion with protocolFailed := true }

/-- The result of a callback that has settled. -/
def callbackResult (completion : Completion) (returnedPromise : Bool) : Settlement → CallbackResult
  | .threw error => .error error
  | .rejected error => .error error
  | .unobservable => .uncertain
  | .fulfilled .foreignCarrier => .uncertain
  | .fulfilled .carrier =>
      match completion.carrier with
      | some value => if completion.protocolFailed then .uncertain else .result value
      | none => .uncertain
  | .fulfilled (.plain value) =>
      if returnedPromise || completion.carrier.isSome || completion.protocolFailed || !value.safe then .uncertain
      else .result value

/-! ### Calls -/

/-- Where a call stands. All phases but `running`, `draining` and `finished` have a statement on its way. -/
inductive Phase where
  | resetting
  | locking
  | confirming
  | running
  | draining
  | verifying
  | unlocking
  | cleaning
  | finished
deriving DecidableEq

def Phase.statement : Phase → Option Statement
  | .resetting => some .reset
  | .locking => some .tryLock
  | .confirming => some .assertHeld
  | .verifying => some .assertHeld
  | .unlocking => some .unlock
  | .cleaning => some .reset
  | .running | .draining | .finished => none

/-- What a call reports: `postgres_operation_guard_outcome_uncertain`, `postgres_operation_guard_busy`, or
what its callback came to. -/
inductive Outcome where
  | uncertain
  | busy
  | result (value : Value)
  | error (error : Nat)
deriving DecidableEq

/-- A probe, issued while the callback was open or behind it. -/
structure Probe where
  wire : Wire
  early : Bool
deriving DecidableEq

structure Call where
  lock : Lock
  backend : BackendId
  phase : Phase
  wire : Wire
  /-- `backendPid` is known. -/
  backendPid : Bool
  healthFailed : Bool
  busy : Bool
  callbackOpen : Bool
  /-- The probes that are not drained. -/
  probes : List Probe
  probeFailed : Bool
  completion : Completion
  callback : Option CallbackResult
  cleanupFailed : Bool
  outcome : Option Outcome
  /-- How often the callback was started. -/
  started : Nat
  /-- Its backend had the lock when it looked before the callback. -/
  confirmed : Bool
  /-- Its backend has held the lock ever since the callback was started. -/
  heldThroughout : Bool
  /-- A probe that was issued while the callback was open has failed. -/
  earlyFailed : Bool
  /-- Another backend had a lock that conflicts when the lock was tried. -/
  denied : Bool
  unlocked : Bool
  wasReset : Bool
deriving DecidableEq

namespace Call

variable (call : Call)

/-- A call that was given a client. -/
def begun (lock : Lock) (backend : BackendId) : Call where
  lock := lock
  backend := backend
  phase := .resetting
  wire := .sent
  backendPid := false
  healthFailed := false
  busy := false
  callbackOpen := false
  probes := []
  probeFailed := false
  completion := { carrier := none, protocolFailed := false }
  callback := none
  cleanupFailed := false
  outcome := none
  started := 0
  confirmed := false
  heldThroughout := false
  earlyFailed := false
  denied := false
  unlocked := false
  wasReset := false

/-- The next statement is sent. -/
def send (phase : Phase) : Call := { call with phase, wire := .sent }

/-- `cleanAndRelease`, which unlocks unless the lock is known to be busy. -/
def clean : Call := if call.busy then call.send .cleaning else call.send .unlocking

def failHealth : Call := { call with healthFailed := true }

/-- What a call reports when its client was released. -/
def report : Outcome :=
  if call.cleanupFailed || call.healthFailed then .uncertain
  else if call.busy then .busy
  else
    match call.callback with
    | some (.error error) => .error error
    | some (.result value) => if value.safe then .result value else .uncertain
    | some .uncertain => .uncertain
    | none => .uncertain

/-- The call goes on with the answer to its statement. -/
def deliver (releaseFails : Bool) : Option Call :=
  let ok : Bool := call.wire = .answered true
  if call.wire = .sent then none
  else
    match call.phase with
    | .resetting =>
        if ok then some (call.send .locking)
        else some { call with phase := .finished, outcome := some .uncertain }
    | .locking =>
        match call.wire with
        | .answered true =>
            let acquired := { call with backendPid := true }
            some (acquired.send .confirming)
        | .answered false =>
            let knownBusy := { call with backendPid := true, busy := true }
            some knownBusy.clean
        | _ => some call.failHealth.clean
    | .confirming =>
        if ok then
          some { call with
            phase := .running
            callbackOpen := true
            started := call.started + 1
            heldThroughout := true }
        else some call.failHealth.clean
    | .verifying => if ok then some call.clean else some call.failHealth.clean
    | .unlocking =>
        let unlocked := ok && call.backendPid
        let after := { call with unlocked, cleanupFailed := call.cleanupFailed || !unlocked }
        some (after.send .cleaning)
    | .cleaning =>
        let cleaned := { call with
          wasReset := ok
          cleanupFailed := call.cleanupFailed || !ok || releaseFails
          phase := .finished }
        some { cleaned with outcome := some cleaned.report }
    | .running | .draining | .finished => none

/-- A probe is issued; one behind the callback fails at once. -/
def probe : Option Call :=
  if call.started = 0 then none
  else if call.callbackOpen then some { call with probes := call.probes ++ [{ wire := .sent, early := true }] }
  else some { call with probes := call.probes ++ [{ wire := .failed, early := false }] }

/-- A probe comes back. -/
def answerProbe (index : Nat) (wire : Wire) : Option Call :=
  match call.probes[index]? with
  | none => none
  | some probe =>
      if probe.wire = .sent then some { call with probes := call.probes.set index { probe with wire } }
      else none

/-- The drain of a probe that has come back. -/
def drain (index : Nat) : Option Call :=
  match call.probes[index]? with
  | none => none
  | some probe =>
      if probe.wire = .sent then none
      else
        let failed : Bool := probe.wire ≠ .answered true
        some { call with
          probes := call.probes.eraseIdx index
          probeFailed := call.probeFailed || failed
          earlyFailed := call.earlyFailed || (failed && probe.early) }

def complete (completeArgs : List Value) : Option Call :=
  if call.started = 0 then none
  else some { call with completion := call.completion.complete call.callbackOpen completeArgs }

/-- The callback has settled and is closed. -/
def settle (returnedPromise : Bool) (settlement : Settlement) : Option Call :=
  if call.phase = .running then
    some { call with
      callback := some (callbackResult call.completion returnedPromise settlement)
      callbackOpen := false
      phase := .draining }
  else none

/-- No probe is left to drain. -/
def drained : Option Call :=
  if call.phase = .draining ∧ call.probes = [] then
    let checked := { call with healthFailed := call.healthFailed || call.probeFailed }
    some (checked.send .verifying)
  else none

/-- The call is between the start of its callback and the last look at its lock. -/
def isWatched : Bool :=
  call.phase = .running || call.phase = .draining || (call.phase = .verifying && call.wire = .sent)

/-- Whether the lock is still held. -/
def observe (server : Server) : Call :=
  if call.isWatched then
    { call with heldThroughout := call.heldThroughout && decide (server.Holds call.backend call.lock) }
  else call

end Call

/-! ### The world -/

structure World where
  server : Server
  calls : CallId → Option Call
  nextCall : CallId

inductive Event where
  /-- A call is given a client that no other call has. -/
  | begin (lock : Lock) (backend : BackendId)
  /-- The server executes the statement of a call. -/
  | execute (c : CallId)
  /-- The answer is lost, with the effect of the statement or without. -/
  | lose (c : CallId) (tookEffect : Bool)
  | deliver (c : CallId) (releaseFails : Bool)
  | probe (c : CallId)
  | executeProbe (c : CallId) (index : Nat)
  | loseProbe (c : CallId) (index : Nat)
  | drain (c : CallId) (index : Nat)
  | complete (c : CallId) (completeArgs : List Value)
  | settle (c : CallId) (returnedPromise : Bool) (settlement : Settlement)
  | drained (c : CallId)
  | die (backend : BackendId)

namespace World

variable (world : World)

/-- No call has begun. -/
def initial : World where
  server := { dead := [], locks := [] }
  calls := fun _ => none
  nextCall := 0

def setCall (c : CallId) (call : Call) : World :=
  { world with calls := Function.update world.calls c (some call) }

/-- A step of a call by itself. -/
def ofCall (c : CallId) (next : Call → Option Call) : Option World := do
  let call ← world.calls c
  let call ← next call
  some (world.setCall c call)

def IsFree (backend : BackendId) : Bool :=
  (List.range world.nextCall).all fun c =>
    (world.calls c).all fun call => call.phase = .finished || call.backend ≠ backend

/-- The server executes the statement that a call has sent; a dead backend fails it. -/
def execute (c : CallId) (answered : Bool) : Option World := do
  let call ← world.calls c
  let statement ← call.phase.statement
  if call.wire ≠ .sent then none
  else if call.backend ∈ world.server.dead then some (world.setCall c { call with wire := .failed })
  else
    let (server, ok) := statement.execute world.server call.backend call.lock
    let executed := { world with server }
    some (executed.setCall c { call with
      wire := if answered then .answered ok else .failed
      denied := call.denied || (statement = .tryLock && !ok)
      confirmed := call.confirmed || (call.phase = .confirming && ok) })

def lose (c : CallId) (tookEffect : Bool) : Option World :=
  if tookEffect then world.execute c false
  else do
    let call ← world.calls c
    let _ ← call.phase.statement
    if call.wire ≠ .sent then none
    else some (world.setCall c { call with wire := .failed })

def executeProbe (c : CallId) (index : Nat) : Option World :=
  world.ofCall c fun call =>
    if call.backend ∈ world.server.dead then call.answerProbe index .failed
    else call.answerProbe index (.answered (world.server.Holds call.backend call.lock))

def transition : Event → Option World
  | .begin lock backend =>
      if world.IsFree backend then
        let begun := world.setCall world.nextCall (.begun lock backend)
        some { begun with nextCall := world.nextCall + 1 }
      else none
  | .execute c => world.execute c true
  | .lose c tookEffect => world.lose c tookEffect
  | .deliver c releaseFails => world.ofCall c (·.deliver releaseFails)
  | .probe c => world.ofCall c (·.probe)
  | .executeProbe c index => world.executeProbe c index
  | .loseProbe c index => world.ofCall c (·.answerProbe index .failed)
  | .drain c index => world.ofCall c (·.drain index)
  | .complete c completeArgs => world.ofCall c (·.complete completeArgs)
  | .settle c returnedPromise settlement => world.ofCall c (·.settle returnedPromise settlement)
  | .drained c => world.ofCall c (·.drained)
  | .die backend => some { world with server := world.server.die backend }

/-- All locks are looked at. -/
def observe : World := { world with calls := fun c => (world.calls c).map (·.observe world.server) }

/-- The world after an event, if the event can happen. -/
def step (event : Event) : Option World := (world.transition event).map (·.observe)

end World

/-- The runs of any number of calls in any processes. -/
def guards : Traces.System World Event where
  start world := world = .initial
  step world events next := ∃ event, world.step event = some next ∧ events = [event]

end PortableCodex.OperationGuard
