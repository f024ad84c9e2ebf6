import PortableCodex.Contracts.SessionStorage
import PortableCodex.Traces.Program

/-!
The durable cursor of the restore recovery runner: one row for a scope and a lane, moved by compare and set.

A transaction is a function of the row it finds; its result has the rows it has written, the newest first. A
time is its ISO text, which is what a timestamp column gives back. A request whose arguments are refused
reaches no transaction. A method is a program over the transactions of the store, which can fail at any of them.
-/

namespace PortableCodex.RecoveryCursor

open Js ProviderState Contracts Traces

inductive ErrorCode where
  | conflict
  | outcomeUncertain
  | stateInvalid
deriving DecidableEq

/-- `MAX_BIGINT` -/
def maxBigint : Nat := 9223372036854775807

abbrev Bigint := { n : Nat // n ≤ maxBigint }

/-! ### Values -/

inductive Lane where
  | generation
  | activation
  | launchAttempt
  | currentLaunch
  | supervisorStateGc
deriving DecidableEq

def Lane.text : Lane → JsString
  | .generation => js "generation"
  | .activation => js "activation"
  | .launchAttempt => js "launch-attempt"
  | .currentLaunch => js "current-launch"
  | .supervisorStateGc => js "supervisor-state-gc"

def lanes : List Lane := [.generation, .activation, .launchAttempt, .currentLaunch, .supervisorStateGc]

/-- `canonicalLane` -/
def canonicalLane (value : JsString) : Option Lane := lanes.find? fun lane => lane.text = value

/-- `canonicalBigint` -/
def canonicalBigint (value : JsString) : Option Bigint :=
  if h : IsDecimal value ∧ digitsValue value ≤ maxBigint then some ⟨digitsValue value, h.2⟩ else none

/-- A place among the candidates of a lane. -/
structure Position where
  afterSessionId : Option Uuid
  afterAuthorizedAt : Option IsoTimestamp
  afterTerminalOperationId : Option OpaqueId
deriving DecidableEq

namespace Position

def start : Position := ⟨none, none, none⟩

/-- `positionIsCompleteOrNull` -/
def isCompleteOrNull (position : Position) : Bool :=
  position.afterSessionId.isSome = position.afterAuthorizedAt.isSome ∧
    position.afterSessionId.isSome = position.afterTerminalOperationId.isSome

/-- The parts that a position of the lane has. -/
def fits (position : Position) (lane : Lane) : Bool :=
  if lane = .supervisorStateGc then position.isCompleteOrNull
  else position.afterAuthorizedAt.isNone ∧ position.afterTerminalOperationId.isNone

/-- `a > b` of two strings or nulls. -/
def greater {P : JsString → Prop} : Option { s : JsString // P s } → Option { s : JsString // P s } → Bool
  | some a, some b => b.val < a.val
  | _, _ => false

/-- `positionAfter` -/
def isAfter (position previous : Position) : Bool :=
  greater position.afterSessionId previous.afterSessionId ||
    (position.afterSessionId = previous.afterSessionId &&
      (greater position.afterAuthorizedAt previous.afterAuthorizedAt ||
        (position.afterAuthorizedAt = previous.afterAuthorizedAt &&
          greater position.afterTerminalOperationId previous.afterTerminalOperationId)))

end Position

/-! ### Requests -/

/-- What a request and a row are about, `READ_KEYS`. -/
structure Key where
  recoveryScopeId : OpaqueId
  lane : Lane
deriving DecidableEq

structure AdvanceRequest where
  key : Key
  transitionId : Uuid
  requestSha256 : Checksum
  expected : Position
  expectedCycle : Bigint
  expectedRevision : Bigint
  next : Position
  nextCycle : Bigint
  nextRevision : Bigint
deriving DecidableEq

def decimalField : JsValue → Option Bigint
  | .string s => canonicalBigint s
  | _ => none

def laneField : JsValue → Option Lane
  | .string s => canonicalLane s
  | _ => none

section Requests

-- `new Date(Date.parse(text)).toISOString()`, where the text is a date
variable (parseDate : JsString → Option IsoTimestamp)

/-- `canonicalTimestamp` of an argument. -/
def timestampField : JsValue → Option IsoTimestamp
  | .string s => parseDate s
  | _ => none

def advanceKeys : List JsString :=
  [js "expectedAfterSessionId", js "expectedCycle", js "expectedRevision", js "lane", js "nextAfterSessionId",
    js "recoveryScopeId", js "requestSha256", js "transitionId"]

def gcAdvanceKeys : List JsString :=
  [js "expectedAfterAuthorizedAt", js "expectedAfterTerminalOperationId", js "nextAfterAuthorizedAt",
    js "nextAfterTerminalOperationId"] ++ advanceKeys

/-- The position behind the three fields of a request; only the lane of the garbage collector has them all. -/
def positionFields (members : List (JsString × JsValue)) (lane : Lane) (session authorized operation : JsString) :
    Option Position := do
  let afterSessionId ← nullable uuid (← getMember members session)
  if lane = .supervisorStateGc then
    let afterAuthorizedAt ← nullable (timestampField parseDate) (← getMember members authorized)
    let afterTerminalOperationId ← nullable canonicalOpaqueId (← getMember members operation)
    some { afterSessionId, afterAuthorizedAt, afterTerminalOperationId }
  else some { afterSessionId, afterAuthorizedAt := none, afterTerminalOperationId := none }

/-- `incrementBigint` -/
def incrementBigint (n : Bigint) : Option Bigint :=
  if h : n.val < maxBigint then some ⟨n.val + 1, h⟩ else none

/-- `normalizeReadRequest` -/
def normalizeReadRequest (value : JsValue) : Option Key := do
  let members ← exactDataObject value [js "lane", js "recoveryScopeId"] [js "lane", js "recoveryScopeId"]
  let recoveryScopeId ← canonicalOpaqueId (← getMember members (js "recoveryScopeId"))
  let lane ← laneField (← getMember members (js "lane"))
  some { recoveryScopeId, lane }

/-- `normalizeAdvanceRequest` -/
def normalizeAdvanceRequest (value : JsValue) : Option AdvanceRequest := do
  let own ← inspectPlainObject value
  let lane ← laneField (← getMember own (js "lane"))
  let keys := if lane = .supervisorStateGc then gcAdvanceKeys else advanceKeys
  let members ← exactDataObject value keys keys
  let expected ← positionFields parseDate members lane (js "expectedAfterSessionId")
    (js "expectedAfterAuthorizedAt") (js "expectedAfterTerminalOperationId")
  let next ← positionFields parseDate members lane (js "nextAfterSessionId")
    (js "nextAfterAuthorizedAt") (js "nextAfterTerminalOperationId")
  ensure (expected.fits lane = true ∧ next.fits lane = true)
  ensure (next.afterSessionId.isNone ∨ expected.afterSessionId.isNone ∨ next.isAfter expected = true)
  let expectedCycle ← decimalField (← getMember members (js "expectedCycle"))
  let expectedRevision ← decimalField (← getMember members (js "expectedRevision"))
  ensure (expectedCycle.val ≤ expectedRevision.val)
  ensure (expectedRevision.val = 0 → expectedCycle.val = 0 ∧ expected.afterSessionId.isNone)
  let nextCycle ← (if next.afterSessionId.isNone then incrementBigint expectedCycle else some expectedCycle)
  let nextRevision ← incrementBigint expectedRevision
  let recoveryScopeId ← canonicalOpaqueId (← getMember members (js "recoveryScopeId"))
  let transitionId ← uuid (← getMember members (js "transitionId"))
  let requestSha256 ← sha256Text (← getMember members (js "requestSha256"))
  some {
    key := { recoveryScopeId, lane }
    transitionId, requestSha256, expected, expectedCycle, expectedRevision, next, nextCycle, nextRevision }

end Requests

/-! ### Rows -/

/-- A row of `restore_recovery_cursors`. -/
structure CursorRow where
  recoveryScopeId : JsString
  lane : JsString
  afterSessionId : Option JsString
  afterAuthorizedAt : Option JsString
  afterTerminalOperationId : Option JsString
  cycle : Nat
  revision : Nat
  lastTransitionId : Option JsString
  lastRequestSha256 : Option JsString
  updatedAt : JsString
deriving DecidableEq

structure Cursor where
  key : Key
  position : Position
  cycle : Bigint
  revision : Bigint
  lastTransitionId : Option Uuid
  lastRequestSha256 : Option Checksum
  updatedAt : IsoTimestamp
deriving DecidableEq

/-- A nullable column of a checked text. -/
def nullableColumn (P : JsString → Prop) [DecidablePred P] : Option JsString → Option (Option { s : JsString // P s })
  | none => some none
  | some s => if h : P s then some (some ⟨s, h⟩) else none

/-- `normalizeCursorRow` -/
def normalizeCursorRow (row : CursorRow) (expected : Key) : Option Cursor := do
  let recoveryScopeId ← canonicalOpaqueId (.string row.recoveryScopeId)
  let lane ← canonicalLane row.lane
  ensure (recoveryScopeId = expected.recoveryScopeId ∧ lane = expected.lane)
  let afterSessionId ← nullableColumn IsUuid row.afterSessionId
  let afterAuthorizedAt ← nullableColumn IsIsoTimestamp row.afterAuthorizedAt
  let afterTerminalOperationId ← nullableColumn IsOpaqueId row.afterTerminalOperationId
  let position : Position := { afterSessionId, afterAuthorizedAt, afterTerminalOperationId }
  ensure (position.fits lane = true)
  let cycle ← canonicalBigint (decimal row.cycle)
  let revision ← canonicalBigint (decimal row.revision)
  ensure (cycle.val ≤ revision.val)
  let lastTransitionId ← nullableColumn IsUuid row.lastTransitionId
  let lastRequestSha256 ← nullableColumn IsSha256 row.lastRequestSha256
  ensure (lastTransitionId.isNone = lastRequestSha256.isNone)
  ensure (if revision.val = 0 then cycle.val = 0 ∧ afterSessionId = none ∧ lastTransitionId = none
    else lastTransitionId ≠ none)
  let updatedAt ← isoTimestamp (.string row.updatedAt)
  some { key := { recoveryScopeId, lane }, position, cycle, revision, lastTransitionId, lastRequestSha256, updatedAt }

/-- `INITIALIZE_QUERY` -/
def initialRow (key : Key) (now : IsoTimestamp) : CursorRow where
  recoveryScopeId := key.recoveryScopeId.val
  lane := key.lane.text
  afterSessionId := none
  afterAuthorizedAt := none
  afterTerminalOperationId := none
  cycle := 0
  revision := 0
  lastTransitionId := none
  lastRequestSha256 := none
  updatedAt := now.val

/-- The row that `UPDATE_QUERY` sets. -/
def targetRow (input : AdvanceRequest) (now : IsoTimestamp) : CursorRow where
  recoveryScopeId := input.key.recoveryScopeId.val
  lane := input.key.lane.text
  afterSessionId := input.next.afterSessionId.map (·.val)
  afterAuthorizedAt := input.next.afterAuthorizedAt.map (·.val)
  afterTerminalOperationId := input.next.afterTerminalOperationId.map (·.val)
  cycle := input.nextCycle.val
  revision := input.nextRevision.val
  lastTransitionId := some input.transitionId.val
  lastRequestSha256 := some input.requestSha256.val
  updatedAt := now.val

/-- The condition of `UPDATE_QUERY` on the row of the scope and the lane. -/
def updates (row : CursorRow) (input : AdvanceRequest) : Bool :=
  row.revision = input.expectedRevision.val ∧ row.cycle = input.expectedCycle.val ∧
    row.afterSessionId = input.expected.afterSessionId.map (·.val) ∧
    row.afterAuthorizedAt = input.expected.afterAuthorizedAt.map (·.val) ∧
    row.afterTerminalOperationId = input.expected.afterTerminalOperationId.map (·.val)

/-! ### Transactions -/

/-- The result of a transaction, and the rows that it has written, the newest first. -/
abbrev Transaction (A : Type) := Option CursorRow → Except ErrorCode (A × List CursorRow)

/-- `initializeAndRead` -/
def initializeAndRead (key : Key) (now : IsoTimestamp) : Transaction Cursor := fun found =>
  let row := found.getD (initialRow key now)
  match normalizeCursorRow row key with
  | none => .error .stateInvalid
  | some cursor => .ok (cursor, if found.isSome then [] else [row])

/-- `readExisting` -/
def readExisting (key : Key) : Transaction (Option Cursor)
  | none => .ok (none, [])
  | some row =>
      match normalizeCursorRow row key with
      | none => .error .stateInvalid
      | some cursor => .ok (some cursor, [])

def cursorMatchesExpected (cursor : Cursor) (input : AdvanceRequest) : Bool :=
  cursor.revision = input.expectedRevision ∧ cursor.cycle = input.expectedCycle ∧
    cursor.position.afterSessionId = input.expected.afterSessionId ∧
    (input.key.lane ≠ .supervisorStateGc ∨
      cursor.position.afterAuthorizedAt = input.expected.afterAuthorizedAt ∧
      cursor.position.afterTerminalOperationId = input.expected.afterTerminalOperationId)

def inputExpectsInitialCursor (input : AdvanceRequest) : Bool :=
  input.expectedRevision.val = 0 ∧ input.expectedCycle.val = 0 ∧ input.expected = .start

def cursorMatchesTarget (cursor : Cursor) (input : AdvanceRequest) : Bool :=
  cursor.revision = input.nextRevision ∧ cursor.cycle = input.nextCycle ∧
    cursor.position.afterSessionId = input.next.afterSessionId ∧
    (input.key.lane ≠ .supervisorStateGc ∨
      cursor.position.afterAuthorizedAt = input.next.afterAuthorizedAt ∧
      cursor.position.afterTerminalOperationId = input.next.afterTerminalOperationId) ∧
    cursor.lastTransitionId = some input.transitionId ∧ cursor.lastRequestSha256 = some input.requestSha256

/-- What `advanceLane` returns. -/
structure Advanced where
  advanced : Bool
  cursor : Cursor
deriving DecidableEq

def advanceTransaction (input : AdvanceRequest) (now : IsoTimestamp) : Transaction Advanced := fun found => do
  let (cursor, initialized) ← initializeAndRead input.key now found
  if cursor.lastTransitionId = some input.transitionId then
    if cursorMatchesTarget cursor input then .ok ({ advanced := false, cursor }, initialized)
    else .error .conflict
  else if cursorMatchesExpected cursor input then
    if updates (found.getD (initialRow input.key now)) input then
      match normalizeCursorRow (targetRow input now) input.key with
      | none => .error .stateInvalid
      | some updated =>
          if cursorMatchesTarget updated input ∧ updated.updatedAt = now then
            .ok ({ advanced := true, cursor := updated }, targetRow input now :: initialized)
          else .error .stateInvalid
    else .error .conflict
  else .error .conflict

/-! ### Methods -/

inductive Op where
  | advance (input : AdvanceRequest)
  | readExisting (key : Key)
  | initializeAndRead (key : Key)

inductive CommitState where
  | notCommitted
  | uncertain
deriving DecidableEq

/-- What `runSerializable` throws; `commitState` is none for errors that are not the store's. -/
inductive StoreError where
  | cursor (code : ErrorCode)
  | store (commitState : Option CommitState)
deriving DecidableEq

abbrev Op.Result : Op → Type
  | .advance _ => Advanced
  | .readExisting _ => Option Cursor
  | .initializeAndRead _ => Cursor

abbrev Answer (op : Op) : Type := Except StoreError op.Result

abbrev Method := Program Op Answer

inductive Returned where
  | advanced (result : Advanced)
  | cursor (cursor : Cursor)

abbrev Result := Except ErrorCode Returned

def readLane (key : Key) : Method Result := do
  match ← Program.perform (.initializeAndRead key) with
  | .ok cursor => return .ok (.cursor cursor)
  | .error (.cursor code) => return .error code
  | .error (.store _) =>
      match ← Program.perform (.initializeAndRead key) with
      | .ok cursor => return .ok (.cursor cursor)
      | .error (.cursor code) => return .error code
      | .error (.store _) => return .error .outcomeUncertain

/-- A readback that shows the target. -/
def shown (input : AdvanceRequest) : Option Cursor → Option Advanced
  | some cursor => if cursorMatchesTarget cursor input then some { advanced := false, cursor } else none
  | none => none

/-- A readback of `advanceLane`, which goes on where it does not show the target. -/
def readback (input : AdvanceRequest) (next : Option Cursor → Method Result) : Method Result := do
  match ← Program.perform (.readExisting input.key) with
  | .error (.cursor code) => return .error code
  | .error (.store _) => return .error .outcomeUncertain
  | .ok observed =>
      match shown input observed with
      | some result => return .ok (.advanced result)
      | none => next observed

/-- The transition has not taken place, as far as the readback says. -/
def canRetry (input : AdvanceRequest) : Option Cursor → Bool
  | none => inputExpectsInitialCursor input
  | some cursor => cursorMatchesExpected cursor input

def advanceLane (input : AdvanceRequest) : Method Result := do
  match ← Program.perform (.advance input) with
  | .ok result => return .ok (.advanced result)
  | .error (.cursor code) => return .error code
  | .error (.store commitState) =>
      readback input fun observed =>
        if commitState = some .notCommitted && canRetry input observed then do
          match ← Program.perform (.advance input) with
          | .ok result => return .ok (.advanced result)
          | .error (.cursor code) => return .error code
          | .error (.store _) => readback input fun _ => return .error .outcomeUncertain
        else return .error .outcomeUncertain

end PortableCodex.RecoveryCursor
