import PortableCodex.Js.Text
import PortableCodex.Traces.Run

/-!
One run of `runSerializable`, with the server and the callback around it.

The callback issues operations at any time; they are queued and executed one after the other, each followed
by a recheck of the transaction ID. What a statement does to the transaction of the attempt and how it is
answered is up to the server: a statement of the callback can end the transaction, also when its answer is
lost. An answer with a trusted SQLSTATE says that the statement had no such effect but a rollback.
-/

namespace PortableCodex.SerializableStore

inductive CommitState where
  | notCommitted
  | uncertain
  | committed
deriving DecidableEq

inductive ErrorCode where
  | connectionFailed
  | clientResetFailed
  | clientReleaseFailed
  | transactionBeginFailed
  | transactionTimestampFailed
  | transactionBoundaryLost
  | transactionRolledBack
  | transactionRollbackFailed
  | transactionQueryInvalid
  | transactionQueryPending
  | transactionQueryFailed
  | transactionCommitOutcomeUncertain
  | serializationRetryExhausted
deriving DecidableEq

/-- An error value: made by `transactionError` of an attempt, another error of a store, or any other. -/
inductive JsError where
  | transaction (attempt index : Nat) (code : ErrorCode) (commitState : CommitState)
  | store (id : Nat) (code : ErrorCode) (commitState : CommitState)
  | other (id : Nat)
deriving DecidableEq

def JsError.isPostgresSerializableStoreError : JsError → Bool
  | .other _ => false
  | _ => true

/-! ### The server -/

/-- The transaction of an attempt. -/
inductive Tx where
  | live
  | rolledBack
  | committed
deriving DecidableEq

/-- What a statement can do to the transaction it runs in. -/
inductive Effect where
  | none
  | commits
  | rollsBack
deriving DecidableEq

def Tx.after (tx : Tx) (effect : Effect) : Tx :=
  match tx, effect with
  | .live, .commits => .committed
  | .live, .rollsBack => .rolledBack
  | tx, _ => tx

/-- The answer to a statement of the callback. -/
inductive Answer where
  /-- Also to a stream whose row callback failed. -/
  | ok (effect : Effect) (callbackFailure : Option JsError)
  /-- A trusted SQLSTATE. The transaction is rolled back when it is retryable. -/
  | rejected (error : JsError) (retryable endsTransaction rollbackUnsafe : Bool)
  /-- Any other SQLSTATE, or none. -/
  | failed (error : JsError) (effect : Effect) (rollbackUnsafe : Bool)
  /-- `createPostgresRowStreamQuery` throws. -/
  | notBuilt
deriving DecidableEq

/-- The answer to a query of the transaction ID: the ID of the attempt, a retryable SQLSTATE, or anything
else. -/
inductive Recheck where
  | same
  | retryable
  | other
deriving DecidableEq

/-- The answer to a statement of `runSerializable` itself. -/
inductive Reply where
  | expected
  /-- `COMMIT` answered by the tag `ROLLBACK`. -/
  | rollbackTag
  | retryable
  /-- A malformed answer, another SQLSTATE, or none. -/
  | failed (tookEffect : Bool)
deriving DecidableEq

inductive TimestampReply where
  | expected
  | malformedTimestamp
  | malformedId
  | failed
deriving DecidableEq

/-! ### The capability of a callback -/

/-- The operation that is executed. -/
inductive Current where
  | querying
  | rechecking (callbackFailure : Option JsError)
deriving DecidableEq

inductive Source where
  | local
  | server
deriving DecidableEq

structure Capability where
  attempt : Nat
  active : Bool
  boundaryLost : Bool
  boundaryRollbackUnsafe : Bool
  firstQueryFailure : Option (JsError × Source)
  retryableBoundaryRollback : Bool
  terminalQueryError : Option JsError
  /-- With whether the SQLSTATE is retryable. -/
  queryErrorSqlStates : List (JsError × Bool)
  transactionErrors : List JsError
  /-- How many operations wait for their turn. -/
  queued : Nat
  current : Option Current
  /-- An operation was issued that has not been acknowledged as successful. -/
  unacknowledged : Bool
deriving DecidableEq

namespace Capability

variable (capability : Capability)

/-- `createTransactionCapability` -/
def create (attempt : Nat) : Capability where
  attempt := attempt
  active := true
  boundaryLost := false
  boundaryRollbackUnsafe := false
  firstQueryFailure := none
  retryableBoundaryRollback := false
  terminalQueryError := none
  queryErrorSqlStates := []
  transactionErrors := []
  queued := 0
  current := none
  unacknowledged := false

def queryPending : Bool := capability.queued ≠ 0 || capability.current.isSome

/-- The error that `transactionError` makes next. -/
def nextError (code : ErrorCode) (commitState : CommitState) : JsError :=
  .transaction capability.attempt capability.transactionErrors.length code commitState

def transactionError (code : ErrorCode) (commitState : CommitState) : Capability :=
  { capability with transactionErrors := capability.nextError code commitState :: capability.transactionErrors }

/-- `firstQueryFailure ??= ...` -/
def failLocally (error : JsError) : Capability :=
  { capability with firstQueryFailure := capability.firstQueryFailure.or (some (error, .local)) }

def markLocalQueryError : Capability :=
  let error := capability.nextError .transactionQueryInvalid .notCommitted
  let made := capability.transactionError .transactionQueryInvalid .notCommitted
  { made.failLocally error with terminalQueryError := capability.terminalQueryError.or (some error) }

/-- `markQueryError` on an untrusted SQLSTATE or none. -/
def loseBoundary : Capability :=
  let error := capability.nextError .transactionBoundaryLost .uncertain
  let made := capability.transactionError .transactionBoundaryLost .uncertain
  { made with boundaryLost := true, terminalQueryError := some error }

/-- `markQueryError` on a trusted SQLSTATE. -/
def rejectQuery (error : JsError) (retryable : Bool) : Capability :=
  { capability with
    firstQueryFailure :=
      match capability.firstQueryFailure with
      | some (first, .server) => some (first, .server)
      | _ => some (error, .server)
    queryErrorSqlStates := (error, retryable) :: capability.queryErrorSqlStates
    terminalQueryError := some error }

def markRollbackUnsafe (rollbackUnsafe : Bool) : Capability :=
  { capability with
    boundaryLost := capability.boundaryLost || rollbackUnsafe
    boundaryRollbackUnsafe := capability.boundaryRollbackUnsafe || rollbackUnsafe }

/-- `query` and `consumeRows`; arguments are valid when they name a statement that may be sent. -/
def issue (validArgs : Bool) : Capability :=
  if capability.active then
    let issued := { capability with unacknowledged := capability.unacknowledged || !validArgs }
    if !validArgs then issued.markLocalQueryError
    else if capability.terminalQueryError.isSome then { issued with unacknowledged := true }
    else { issued with queued := capability.queued + 1 }
  else capability

/-- The next operation has its turn, and may be refused. -/
def start : Option Capability :=
  if capability.queued = 0 ∨ capability.current.isSome then none
  else
    let started := { capability with queued := capability.queued - 1 }
    if capability.terminalQueryError.isSome || capability.boundaryLost || capability.retryableBoundaryRollback then
      some { started with unacknowledged := true }
    else some { started with current := some .querying }

/-- An operation ends without success. -/
def finishFailed : Capability := { capability with current := none, unacknowledged := true }

def answer : Answer → Capability
  | .ok _ callbackFailure => { capability with current := some (.rechecking callbackFailure) }
  | .rejected error retryable _ rollbackUnsafe =>
      ((capability.markRollbackUnsafe rollbackUnsafe).rejectQuery error retryable).finishFailed
  | .failed _ _ rollbackUnsafe => (capability.markRollbackUnsafe rollbackUnsafe).loseBoundary.finishFailed
  | .notBuilt => capability.markLocalQueryError.finishFailed

/-- `recheckBoundary`, and the end of the operation. -/
def recheck (callbackFailure : Option JsError) : Recheck → Capability
  | .same =>
      match callbackFailure with
      | none => { capability with current := none }
      | some error => (capability.failLocally error).finishFailed
  | .retryable =>
      let made := capability.transactionError .transactionRolledBack .notCommitted
      let rolledBack := { made with retryableBoundaryRollback := true }
      rolledBack.finishFailed
  | .other =>
      let made := capability.transactionError .transactionBoundaryLost .uncertain
      let lost := { made with boundaryLost := true }
      lost.finishFailed

def sqlStateOf (error : JsError) : Option Bool :=
  (capability.queryErrorSqlStates.find? fun entry => entry.1 = error).map (·.2)

def isQueryError (error : JsError) : Bool :=
  match capability.firstQueryFailure with
  | some (first, .server) => first = error || (capability.sqlStateOf error).isSome
  | _ => false

def isRetryableQueryError (error : JsError) : Bool := capability.sqlStateOf error = some true

end Capability

/-! ### Attempts -/

inductive Settlement (Value : Type) where
  | returned (value : Value)
  | threw (error : JsError)
deriving DecidableEq

inductive Outcome (Value : Type) where
  | fulfilled (value : Value)
  /-- An error of the run itself. -/
  | rejected (code : ErrorCode) (commitState : CommitState)
  /-- The callback's own error. -/
  | rethrown (error : JsError)
deriving DecidableEq

/-- What follows when the client was released. -/
inductive After (Value : Type) where
  | ends (outcome : Outcome Value)
  /-- The next attempt, if there is one left. -/
  | retry
deriving DecidableEq

inductive Phase (Value : Type) where
  | connecting
  /-- The first `DISCARD ALL`. -/
  | cleaning
  | beginning
  | timestamping
  | running
  /-- The callback has settled; its operations drain. -/
  | closing (settlement : Settlement Value) (queryPending : Bool)
  | rollingBack (after : After Value)
  | settingDurable (value : Value)
  | checkingDurable (value : Value)
  | committing (value : Value)
  /-- `resetAndRelease` -/
  | resetting (commitState : CommitState) (after : After Value)
  /-- A release that matters. -/
  | releasing (commitState : CommitState) (after : After Value)
  /-- A last `ROLLBACK`, if it can be submitted, and a release. Their ends do not matter. -/
  | abandoning (rollbackCanBeSubmitted : Bool) (outcome : Outcome Value)
  | finished (outcome : Outcome Value)
deriving DecidableEq

structure State (Value : Type) where
  maxTransactionAttempts : Nat
  attempt : Nat
  phase : Phase Value
  tx : Tx
  capability : Capability
  /-- How the callback of the attempt has settled. -/
  settlement : Option (Settlement Value)
  /-- The attempts that were committed, the last one first. -/
  committed : List Nat
deriving DecidableEq

inductive Event (Value : Type) where
  | connect (ok : Bool)
  | reply (reply : Reply)
  | timestamp (reply : TimestampReply)
  | issue (validArgs : Bool)
  | start
  | answer (answer : Answer)
  | recheck (recheck : Recheck)
  | settle (settlement : Settlement Value)
  | close
  | release (ok : Bool)
deriving DecidableEq

namespace State

variable {Value : Type} (s : State Value)

/-- The first attempt. -/
def initial (maxTransactionAttempts : Nat) : State Value where
  maxTransactionAttempts := maxTransactionAttempts
  attempt := 1
  phase := .connecting
  tx := .rolledBack
  capability := .create 1
  settlement := none
  committed := []

/-- A statement has its effect on the transaction. -/
def affect (effect : Effect) : State Value :=
  { s with
    tx := s.tx.after effect
    committed := if s.tx = .live ∧ effect = .commits then s.attempt :: s.committed else s.committed }

def finish (outcome : Outcome Value) : State Value := { s with phase := .finished outcome }

/-- `continue`, or the error behind the last attempt. -/
def retry : State Value :=
  if s.attempt < s.maxTransactionAttempts then
    { s with
      attempt := s.attempt + 1
      phase := .connecting
      tx := .rolledBack
      capability := .create (s.attempt + 1)
      settlement := none }
  else s.finish (.rejected .serializationRetryExhausted .notCommitted)

def goOn : After Value → State Value
  | .ends outcome => s.finish outcome
  | .retry => s.retry

/-- What a callback that has failed comes to when its transaction was rolled back. -/
def afterRollback (error : JsError) : After Value :=
  if s.capability.isQueryError error then
    if s.capability.isRetryableQueryError error then .retry
    else .ends (.rejected .transactionQueryFailed .notCommitted)
  else if error.isPostgresSerializableStoreError && error ∉ s.capability.transactionErrors then
    .ends (.rejected .transactionRolledBack .notCommitted)
  else .ends (.rethrown error)

/-- Behind `capability.close()`. -/
def close (settlement : Settlement Value) (queryPending : Bool) : State Value :=
  let capability := s.capability
  if capability.retryableBoundaryRollback then { s with phase := .releasing .notCommitted .retry }
  else if capability.boundaryLost then
    let outcome := .rejected .transactionBoundaryLost .uncertain
    { s with phase := .abandoning (!capability.boundaryRollbackUnsafe) outcome }
  else
    match settlement with
    | .threw error => { s with phase := .rollingBack (s.afterRollback error) }
    | .returned value =>
        if queryPending then
          let error := capability.nextError .transactionQueryPending .notCommitted
          let made := { s with capability := capability.transactionError .transactionQueryPending .notCommitted }
          { made with phase := .rollingBack (made.afterRollback error) }
        else
          match capability.firstQueryFailure with
          | some (error, _) => { s with phase := .rollingBack (s.afterRollback error) }
          | none => { s with phase := .settingDurable value }

/-- The answer to a statement of `runSerializable`. The transaction ID is the attempt's, and `COMMIT`
commits, only while the transaction is live. -/
def reply (reply : Reply) : Option (State Value) :=
  match s.phase, reply with
  | .cleaning, .expected => some { s with phase := .beginning }
  | .cleaning, _ => some { s with phase := .abandoning false (.rejected .clientResetFailed .notCommitted) }
  | .beginning, .expected => some { s with phase := .timestamping, tx := .live }
  | .beginning, _ =>
      some { s with phase := .releasing .notCommitted (.ends (.rejected .transactionBeginFailed .notCommitted)) }
  | .rollingBack after, .expected =>
      let ended := s.affect .rollsBack
      some { ended with phase := .resetting .notCommitted after }
  | .rollingBack _, _ => some { s with phase := .abandoning false (.rejected .transactionRollbackFailed .uncertain) }
  | .settingDurable value, .expected => some { s with phase := .checkingDurable value }
  | .settingDurable _, .retryable =>
      let ended := s.affect .rollsBack
      some { ended with phase := .releasing .notCommitted .retry }
  | .settingDurable _, _ => some { s with phase := .abandoning true (.rejected .transactionBoundaryLost .uncertain) }
  | .checkingDurable value, .expected => if s.tx = .live then some { s with phase := .committing value } else none
  | .checkingDurable _, .retryable =>
      let ended := s.affect .rollsBack
      some { ended with phase := .releasing .notCommitted .retry }
  | .checkingDurable _, _ => some { s with phase := .abandoning true (.rejected .transactionBoundaryLost .uncertain) }
  | .committing value, .expected =>
      if s.tx = .live then
        let ended := s.affect .commits
        some { ended with phase := .resetting .committed (.ends (.fulfilled value)) }
      else none
  | .committing _, .rollbackTag =>
      let ended := s.affect .rollsBack
      some { ended with
        phase := .resetting .notCommitted (.ends (.rejected .transactionRolledBack .notCommitted)) }
  | .committing _, .retryable =>
      let ended := s.affect .rollsBack
      some { ended with phase := .releasing .notCommitted .retry }
  | .committing _, .failed tookEffect =>
      let ended := s.affect (if tookEffect then .commits else .none)
      some { ended with phase := .abandoning true (.rejected .transactionCommitOutcomeUncertain .uncertain) }
  | .resetting commitState after, .expected => some { s with phase := .releasing commitState after }
  | .resetting commitState _, _ => some { s with phase := .abandoning false (.rejected .clientResetFailed commitState) }
  | .abandoning true outcome, reply =>
      let ended := s.affect (if reply = .expected then .rollsBack else .none)
      some { ended with phase := .abandoning false outcome }
  | _, _ => none

def timestamp (reply : TimestampReply) : Option (State Value) :=
  match s.phase, reply with
  | .timestamping, .expected => some { s with phase := .running, capability := .create s.attempt }
  | .timestamping, .malformedTimestamp =>
      some { s with phase := .rollingBack (.ends (.rejected .transactionTimestampFailed .notCommitted)) }
  | .timestamping, .malformedId =>
      some { s with phase := .rollingBack (.ends (.rejected .transactionBoundaryLost .notCommitted)) }
  | .timestamping, .failed =>
      some { s with phase := .rollingBack (.ends (.rejected .transactionTimestampFailed .notCommitted)) }
  | _, _ => none

/-- The callback runs, or its operations drain. -/
def isOpen : Bool :=
  match s.phase with
  | .running | .closing _ _ => true
  | _ => false

def Answer.effect : Answer → Effect
  | .ok effect _ => effect
  | .rejected _ retryable endsTransaction _ => if retryable || endsTransaction then .rollsBack else .none
  | .failed _ effect _ => effect
  | .notBuilt => .none

def step : Event Value → Option (State Value)
  | .connect ok =>
      match s.phase with
      | .connecting =>
          if ok then some { s with phase := .cleaning }
          else some (s.finish (.rejected .connectionFailed .notCommitted))
      | _ => none
  | .reply reply => s.reply reply
  | .timestamp reply => s.timestamp reply
  | .issue validArgs =>
      -- the capabilities of the earlier attempts are not active
      if s.isOpen then some { s with capability := s.capability.issue validArgs } else some s
  | .start => do
      let capability ← s.capability.start
      if s.isOpen then some { s with capability } else none
  | .answer answer =>
      if s.isOpen ∧ s.capability.current = some .querying then
        let answered := s.affect (Answer.effect answer)
        some { answered with capability := s.capability.answer answer }
      else none
  | .recheck recheck =>
      match s.isOpen, s.capability.current with
      | true, some (.rechecking callbackFailure) =>
          -- only a live transaction has the ID of the attempt
          if recheck = .same ∧ s.tx ≠ .live then none
          else
            let answered := s.affect (if recheck = .retryable then .rollsBack else .none)
            some { answered with capability := s.capability.recheck callbackFailure recheck }
      | _, _ => none
  | .settle settlement =>
      match s.phase with
      | .running =>
          some { s with
            phase := .closing settlement s.capability.queryPending
            capability := { s.capability with active := false }
            settlement := some settlement }
      | _ => none
  | .close =>
      match s.phase with
      | .closing settlement queryPending =>
          if s.capability.queryPending then none else some (s.close settlement queryPending)
      | _ => none
  | .release ok =>
      match s.phase with
      | .releasing commitState after =>
          if ok then some (s.goOn after) else some (s.finish (.rejected .clientReleaseFailed commitState))
      | .abandoning false outcome => some (s.finish outcome)
      | _ => none

end State

/-- The runs of one call. -/
def runSerializable (Value : Type) (maxTransactionAttempts : Nat) : Traces.System (State Value) (Event Value) where
  start s := s = .initial maxTransactionAttempts
  step s events next := ∃ event, s.step event = some next ∧ events = [event]

end PortableCodex.SerializableStore
