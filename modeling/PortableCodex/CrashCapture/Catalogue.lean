import Mathlib.Logic.Function.Basic
import PortableCodex.Js.Text
import PortableCodex.Traces.Program
import PortableCodex.Traces.Run

/-!
The PostgreSQL catalogue of atomic crash captures.

A transaction is a function of the table, because the store runs it serializably; the store can still fail
it, with or without its effect. The methods are programs over transactions. The contract functions of
session storage, the canonical JSON of a value and the hash are those of a `Codec`; nothing is asked of
them. The checks of columns that the table's constraints repeat are left to the server, which can refuse
any statement.
-/

namespace PortableCodex.CrashCapture

open Js Traces

abbrev Owner := Nat
abbrev CallId := Nat
abbrev DispatchClaim := Nat
/-- In milliseconds. -/
abbrev Timestamp := Int

inductive ErrorCode where
  | invalidRequest
  | invalidDispatchClaim
  | conflict
  | outcomeUncertain
  | stateInvalid
deriving DecidableEq

/-! ### Requests -/

def contractVersion : Nat := 1
def maxRequestJsonBytes : Nat := 262144
def maxProviderBindingJsonBytes : Nat := 65536
def maxResultJsonBytes : Nat := 131072

/-- The four identities, each of which names at most one capture. -/
structure Identities where
  captureAttemptId : JsString
  operationId : JsString
  checkpointId : JsString
  artifactId : JsString
deriving DecidableEq

def Identities.Shares (a b : Identities) : Prop :=
  a.captureAttemptId = b.captureAttemptId ∨ a.operationId = b.operationId ∨
    a.checkpointId = b.checkpointId ∨ a.artifactId = b.artifactId

instance (a b : Identities) : Decidable (a.Shares b) := inferInstanceAs (Decidable (_ ∨ _))

/-- What `assertAtomicCrashCaptureRequest` returns. -/
structure AssertedRequest (Value : Type) where
  value : Value
  identities : Identities
  contractVersion : Nat
  backendId : JsString
  sessionId : JsString
  storageId : JsString
  sourceFencingEpoch : JsString

structure Request (Value : Type) where
  identities : Identities
  contractVersion : Nat
  backendId : JsString
  sessionId : JsString
  storageId : JsString
  sourceFencingEpoch : JsString
  request : Value
  requestJson : JsString
  requestSha256 : JsString

structure Binding (Value : Type) where
  providerBinding : Value
  providerBindingJson : JsString
  providerBindingSha256 : JsString

structure Input (Value : Type) where
  request : Request Value
  binding : Binding Value

structure StoredResult (Value : Type) where
  result : Value
  resultJson : JsString
  resultSha256 : JsString

/-- The functions the catalogue normalizes with. -/
structure Codec (Value : Type) where
  assertAtomicCrashCaptureRequest : Value → Option (AssertedRequest Value)
  assertAtomicCrashCaptureResult : Value → Value → Option Value
  /-- `canonical` and `serialized`, within a number of bytes. -/
  canonicalJsonObject : Value → Nat → Option (Value × JsString)
  sha256 : JsString → JsString
  /-- The value of a column that was written as a text. -/
  jsonb : JsString → Value

namespace Codec

variable {Value : Type} (codec : Codec Value)

def normalizedRequest (value : Value) : Option (Request Value) := do
  let request ← codec.assertAtomicCrashCaptureRequest value
  let (canonical, serialized) ← codec.canonicalJsonObject request.value maxRequestJsonBytes
  some {
    identities := request.identities
    contractVersion := request.contractVersion
    backendId := request.backendId
    sessionId := request.sessionId
    storageId := request.storageId
    sourceFencingEpoch := request.sourceFencingEpoch
    request := canonical
    requestJson := serialized
    requestSha256 := codec.sha256 serialized }

def normalizedProviderBinding (value : Value) : Option (Binding Value) := do
  let (canonical, serialized) ← codec.canonicalJsonObject value maxProviderBindingJsonBytes
  some {
    providerBinding := canonical
    providerBindingJson := serialized
    providerBindingSha256 := codec.sha256 serialized }

def normalizedClaimInput (request providerBinding : Value) : Option (Input Value) := do
  let request ← codec.normalizedRequest request
  let binding ← codec.normalizedProviderBinding providerBinding
  some { request, binding }

def normalizedStoredResult (value : Value) (request : Request Value) : Option (StoredResult Value) := do
  let result ← codec.assertAtomicCrashCaptureResult value request.request
  let (canonical, serialized) ← codec.canonicalJsonObject result maxResultJsonBytes
  some { result := canonical, resultJson := serialized, resultSha256 := codec.sha256 serialized }

end Codec

/-! ### Rows -/

inductive State where
  | starting
  | uncertain
  | committed
deriving DecidableEq

structure Row where
  /-- The call that inserted the row. -/
  claimant : CallId
  identities : Identities
  contractVersion : Nat
  backendId : JsString
  sessionId : JsString
  storageId : JsString
  sourceFencingEpoch : JsString
  requestJson : JsString
  requestSha256 : JsString
  providerBindingJson : JsString
  providerBindingSha256 : JsString
  state : State
  resultJson : Option JsString
  resultSha256 : Option JsString
  claimedAt : Timestamp
  uncertainAt : Option Timestamp
  committedAt : Option Timestamp
deriving DecidableEq

abbrev Table := List Row

/-- A row as `normalizedRow` returns it. -/
structure Observed (Value : Type) where
  request : Request Value
  binding : Binding Value
  result : Option (StoredResult Value)
  state : State

namespace Row

variable {Value : Type} (codec : Codec Value) (row : Row)

/-- `atomic_crash_captures_transition_times` -/
def timesOrdered : Bool :=
  match row.state, row.uncertainAt, row.committedAt with
  | .starting, none, none => true
  | .uncertain, some uncertainAt, none => row.claimedAt ≤ uncertainAt
  | .committed, none, some committedAt => row.claimedAt ≤ committedAt
  | .committed, some uncertainAt, some committedAt =>
      row.claimedAt ≤ committedAt && row.claimedAt ≤ uncertainAt && uncertainAt ≤ committedAt
  | _, _, _ => false

/-- The columns repeat the request and the binding. -/
def Repeats (request : Request Value) (binding : Binding Value) : Prop :=
  request.identities = row.identities ∧ request.backendId = row.backendId ∧ request.sessionId = row.sessionId ∧
    request.storageId = row.storageId ∧ request.sourceFencingEpoch = row.sourceFencingEpoch ∧
    request.requestSha256 = row.requestSha256 ∧ binding.providerBindingJson = row.providerBindingJson ∧
    binding.providerBindingSha256 = row.providerBindingSha256

instance (request : Request Value) (binding : Binding Value) : Decidable (row.Repeats request binding) :=
  inferInstanceAs (Decidable (_ ∧ _))

/-- The result of a row: none unless it is committed. -/
def normalizedResult (request : Request Value) : Option (Option (StoredResult Value)) :=
  match row.state, row.resultJson, row.resultSha256 with
  | .committed, some resultJson, some resultSha256 => do
      let result ← codec.normalizedStoredResult (codec.jsonb resultJson) request
      if result.resultSha256 = resultSha256 then some (some result) else none
  | .committed, _, _ => none
  | _, none, none => some none
  | _, _, _ => none

def normalizedRow : Option (Observed Value) := do
  let request ← codec.normalizedRequest (codec.jsonb row.requestJson)
  let binding ← codec.normalizedProviderBinding (codec.jsonb row.providerBindingJson)
  if row.contractVersion = CrashCapture.contractVersion ∧ row.Repeats request binding ∧ row.timesOrdered then
    let result ← row.normalizedResult codec request
    some { request, binding, result, state := row.state }
  else none

/-- The row of a claim. -/
def starting (claimant : CallId) (input : Input Value) (now : Timestamp) : Row where
  claimant := claimant
  identities := input.request.identities
  contractVersion := input.request.contractVersion
  backendId := input.request.backendId
  sessionId := input.request.sessionId
  storageId := input.request.storageId
  sourceFencingEpoch := input.request.sourceFencingEpoch
  requestJson := input.request.requestJson
  requestSha256 := input.request.requestSha256
  providerBindingJson := input.binding.providerBindingJson
  providerBindingSha256 := input.binding.providerBindingSha256
  state := .starting
  resultJson := none
  resultSha256 := none
  claimedAt := now
  uncertainAt := none
  committedAt := none

def toUncertain (now : Timestamp) : Row := { row with state := .uncertain, uncertainAt := some now }

def toCommitted (result : StoredResult Value) (now : Timestamp) : Row :=
  { row with
    state := .committed
    resultJson := some result.resultJson
    resultSha256 := some result.resultSha256
    committedAt := some now }

end Row

namespace Observed

variable {Value : Type} (row : Observed Value)

def rowMatchesRequest (request : Request Value) : Bool :=
  row.request.identities = request.identities && row.request.backendId = request.backendId &&
    row.request.sessionId = request.sessionId && row.request.storageId = request.storageId &&
    row.request.sourceFencingEpoch = request.sourceFencingEpoch &&
    row.request.requestSha256 = request.requestSha256 && row.request.requestJson = request.requestJson

def rowMatchesBinding (binding : Binding Value) : Bool :=
  row.binding.providerBindingSha256 = binding.providerBindingSha256 &&
    row.binding.providerBindingJson = binding.providerBindingJson

def rowMatchesResult (result : StoredResult Value) : Bool :=
  row.result.any fun stored =>
    stored.resultSha256 = result.resultSha256 && stored.resultJson = result.resultJson

end Observed

/-- What a method returns. The claim of a dispatch is made when the call returns. -/
inductive Projection (Value : Type) where
  | dispatch
  | committed (providerBinding result : Value)
  | unknown
  | uncertain

section Transactions

variable {Value : Type} (codec : Codec Value)

def committedProjection (row : Observed Value) : Except ErrorCode (Projection Value) :=
  match row.state, row.result with
  | .committed, some result => .ok (.committed row.binding.providerBinding result.result)
  | _, _ => .error .stateInvalid

def observedProjection : Option (Observed Value) → Except ErrorCode (Projection Value)
  | none => .ok .unknown
  | some row => if row.state = .committed then committedProjection row else .ok .unknown

/-! ### Transactions -/

/-- How the callback of a transaction fails. -/
inductive Failure where
  | catalogue (code : ErrorCode)
  | visibilityRetry
  /-- The server refuses a statement. -/
  | refused
deriving DecidableEq

abbrev Transaction (A : Type) := Table → Except Failure (A × Table)

/-- `selectRows` -/
def selectRows (table : Table) (identities : Identities) : Except ErrorCode (List Row) :=
  let rows := table.filter fun row => row.identities.Shares identities
  if rows.length ≤ 4 then .ok rows else .error .stateInvalid

def exactObservedRow (rows : List Row) (request : Request Value) (requireBinding : Option (Binding Value)) :
    Except ErrorCode (Option (Observed Value)) :=
  match rows with
  | [] => .ok none
  | [row] =>
      match row.normalizedRow codec with
      | none => .error .stateInvalid
      | some observed =>
          if observed.rowMatchesRequest request && requireBinding.all observed.rowMatchesBinding then .ok (some observed)
          else .error .conflict
  | _ => .error .conflict

/-- The row of a request, as a transaction sees it. -/
def observe (table : Table) (request : Request Value) (requireBinding : Option (Binding Value)) :
    Except ErrorCode (Option (Observed Value)) := do
  let rows ← selectRows table request.identities
  exactObservedRow codec rows request requireBinding

def readRowTransaction (request : Request Value) (requireBinding : Option (Binding Value)) :
    Transaction (Option (Observed Value)) := fun table =>
  match observe codec table request requireBinding with
  | .ok row => .ok (row, table)
  | .error code => .error (.catalogue code)

/-- `inserted`, or the projection of the row that is there. -/
inductive Attempt (Value : Type) where
  | inserted
  | projection (projection : Projection Value)

def claimTransaction (claimant : CallId) (input : Input Value) (now : Timestamp) : Transaction (Attempt Value) :=
  fun table =>
    if ∃ row ∈ table, row.identities.Shares input.request.identities then
      -- `ON CONFLICT DO NOTHING`
      match observe codec table input.request (some input.binding) with
      | .error code => .error (.catalogue code)
      | .ok none => .error .visibilityRetry
      | .ok (some row) =>
          match observedProjection (some row) with
          | .ok projection => .ok (.projection projection, table)
          | .error code => .error (.catalogue code)
    else if input.request.contractVersion = contractVersion then
      .ok (.inserted, table ++ [.starting claimant input now])
    else .error .refused

/-- An `UPDATE` of the row with a primary key that is named in its condition. -/
def update (condition : Row → Bool) (change : Row → Row) : Table → Option (Row × Table)
  | [] => none
  | row :: rows =>
      if condition row then some (change row, change row :: rows)
      else (update condition change rows).map fun (updated, after) => (updated, row :: after)

/-- The `WHERE` of both transitions. -/
def transitionValues (input : Input Value) (row : Row) : Bool :=
  row.identities = input.request.identities && row.requestSha256 = input.request.requestSha256 &&
    row.providerBindingSha256 = input.binding.providerBindingSha256

def markUncertainTransaction (input : Input Value) (now : Timestamp) : Transaction (Projection Value) := fun table =>
  match update (fun row => transitionValues input row && row.state = .starting) (·.toUncertain now) table with
  | some (updated, after) =>
      if updated.timesOrdered then
        match updated.normalizedRow codec with
        | some row =>
            if row.rowMatchesRequest input.request && row.rowMatchesBinding input.binding && row.state = .uncertain then
              .ok (.uncertain, after)
            else .error (.catalogue .stateInvalid)
        | none => .error (.catalogue .stateInvalid)
      else .error .refused
  | none =>
      match observe codec table input.request (some input.binding) with
      | .ok (some row) =>
          if row.state = .uncertain then .ok (.uncertain, table) else .error (.catalogue .stateInvalid)
      | .ok none => .error (.catalogue .stateInvalid)
      | .error code => .error (.catalogue code)

def commitResultTransaction (input : Input Value) (result : StoredResult Value) (now : Timestamp) :
    Transaction (Projection Value) := fun table =>
  match update (fun row => transitionValues input row && row.state ≠ .committed) (·.toCommitted result now) table with
  | some (updated, after) =>
      if updated.timesOrdered then
        match updated.normalizedRow codec with
        | some row =>
            if row.rowMatchesRequest input.request && row.rowMatchesBinding input.binding &&
                row.rowMatchesResult result then
              match committedProjection row with
              | .ok projection => .ok (projection, after)
              | .error code => .error (.catalogue code)
            else .error (.catalogue .stateInvalid)
        | none => .error (.catalogue .stateInvalid)
      else .error .refused
  | none =>
      match observe codec table input.request (some input.binding) with
      | .ok (some row) =>
          if row.state = .committed then
            if row.rowMatchesResult result then
              match committedProjection row with
              | .ok projection => .ok (projection, table)
              | .error code => .error (.catalogue code)
            else .error (.catalogue .conflict)
          else .error (.catalogue .stateInvalid)
      | .ok none => .error (.catalogue .stateInvalid)
      | .error code => .error (.catalogue code)

end Transactions

/-! ### Methods -/

/-- What a claim of a dispatch is used for. -/
inductive Transition (Value : Type) where
  | mark
  | commit (result : StoredResult Value)

inductive Op (Value : Type) where
  | claim (input : Input Value)
  | read (request : Request Value) (requireBinding : Option (Binding Value))
  | transition (input : Input Value) (transition : Transition Value)

inductive CommitState where
  | notCommitted
  | uncertain
deriving DecidableEq

/-- What `runSerializable` throws; `commitState` is none for errors that are not the store's. -/
inductive StoreError where
  | catalogue (code : ErrorCode)
  | visibilityRetry
  | store (commitState : Option CommitState)
deriving DecidableEq

def StoreError.storeCommitState : StoreError → Option CommitState
  | .store commitState => commitState
  | _ => none

abbrev Op.Result {Value : Type} : Op Value → Type
  | .claim _ => Attempt Value
  | .read _ _ => Option (Observed Value)
  | .transition _ _ => Projection Value

abbrev Answer {Value : Type} (op : Op Value) : Type := Except StoreError op.Result

abbrev Method (Value : Type) := Program (Op Value) Answer

abbrev Result (Value : Type) := Except ErrorCode (Projection Value)

section Methods

variable {Value : Type}

def attempted : Attempt Value → Except ErrorCode (Projection Value)
  | .inserted => .ok .dispatch
  | .projection projection => .ok projection

/-- A claim whose transaction failed otherwise than by an error of the catalogue. -/
def claimAgain (input : Input Value) (error : StoreError) : Method Value (Result Value) := do
  match ← Program.perform (Op.read input.request (some input.binding)) with
  | .error (.catalogue code) => return .error code
  | .error _ => return .error .outcomeUncertain
  | .ok (some row) => return observedProjection (some row)
  | .ok none =>
      if error.storeCommitState = some .notCommitted then
        match ← Program.perform (Op.claim input) with
        | .ok attempt => return attempted attempt
        | .error (.catalogue code) => return .error code
        | .error _ => return .error .outcomeUncertain
      else return .error .outcomeUncertain

def claimWithRecovery (input : Input Value) : Method Value (Result Value) := do
  match ← Program.perform (Op.claim input) with
  | .ok attempt => return attempted attempt
  | .error (.catalogue code) => return .error code
  | .error .visibilityRetry =>
      match ← Program.perform (Op.claim input) with
      | .ok attempt => return attempted attempt
      | .error (.catalogue code) => return .error code
      | .error error => claimAgain input error
  | .error error => claimAgain input error

/-- What a readback shows of a transition that has taken effect. -/
def Transition.settled : Transition Value → Option (Observed Value) → Option (Except ErrorCode (Projection Value))
  | .mark, some row => if row.state = .uncertain then some (.ok .uncertain) else none
  | .commit result, some row =>
      if row.state = .committed then
        some (if row.rowMatchesResult result then committedProjection row else .error .conflict)
      else none
  | _, none => none

def Transition.canRetry : Transition Value → Option (Observed Value) → Bool
  | .mark, some row => row.state = .starting
  | .commit _, some row => row.state = .starting || row.state = .uncertain
  | _, none => false

/-- The readback behind a transition that was tried again. -/
def transitionReadback (input : Input Value) (transition : Transition Value) : Method Value (Result Value) := do
  match ← Program.perform (Op.read input.request (some input.binding)) with
  | .error (.catalogue code) => return .error code
  | .error _ => return .error .outcomeUncertain
  | .ok observed => return (transition.settled observed).getD (.error .outcomeUncertain)

def transitionAgain (input : Input Value) (transition : Transition Value) (error : StoreError) :
    Method Value (Result Value) := do
  match ← Program.perform (Op.read input.request (some input.binding)) with
  | .error (.catalogue code) => return .error code
  | .error _ => return .error .outcomeUncertain
  | .ok observed =>
      match transition.settled observed with
      | some settled => return settled
      | none =>
          if error.storeCommitState = some .notCommitted && transition.canRetry observed then
            match ← Program.perform (Op.transition input transition) with
            | .ok projection => return .ok projection
            | .error (.catalogue code) => return .error code
            | .error _ => transitionReadback input transition
          else return .error .outcomeUncertain

def transitionWithRecovery (input : Input Value) (transition : Transition Value) : Method Value (Result Value) := do
  match ← Program.perform (Op.transition input transition) with
  | .ok projection => return .ok projection
  | .error (.catalogue code) => return .error code
  | .error error => transitionAgain input transition error

def readCommitted (request : Request Value) : Method Value (Result Value) := do
  match ← Program.perform (Op.read request none) with
  | .ok row => return observedProjection row
  | .error (.catalogue code) => return .error code
  | .error _ =>
      match ← Program.perform (Op.read request none) with
      | .ok row => return observedProjection row
      | .error (.catalogue code) => return .error code
      | .error _ => return .error .outcomeUncertain

end Methods

end PortableCodex.CrashCapture
