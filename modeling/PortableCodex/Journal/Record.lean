import PortableCodex.Contracts.Mutation
import PortableCodex.Js.RegExp
import PortableCodex.ProviderState.Canonical

/-!
The records of the filesystem operation journal.

An operation is normalized within one budget for its request, binding, result and materialization. A
record is accepted only when its canonical text is the text it was read from (`parseRecord_bytes`), so a
file holds at most one record.
-/

namespace PortableCodex.Journal

open Js Contracts
open ProviderState (Budget Visit OpaqueId byteLength canonicalOpaqueId exactDataFields inspectPlainObject isText
  record runItems safeInteger textJson)

/-! ### Errors -/

inductive ErrorCode where
  | invalidJournalRequest
  | invalidJournalDirectory
  | invalidJournalRecord
  | unsupportedJournalRecord
  | operationConflict
  | operationAlreadyStarted
  | invalidStateTransition
  | journalIoFailed
  | journalCommitOutcomeUncertain
  | journalRecoveryRequired
  | journalLockReleaseFailed
deriving DecidableEq

/-- `ERROR_MESSAGES` -/
def ErrorCode.message : ErrorCode → String
  | .invalidJournalRequest => "Operation journal request is invalid"
  | .invalidJournalDirectory => "Operation journal directory is invalid"
  | .invalidJournalRecord => "Operation journal record is invalid"
  | .unsupportedJournalRecord => "Operation journal record version is unsupported"
  | .operationConflict => "Operation ID is already bound to a different operation"
  | .operationAlreadyStarted => "Operation ID already has durable state"
  | .invalidStateTransition => "Operation journal state transition is invalid"
  | .journalIoFailed => "Operation journal I/O failed before commit"
  | .journalCommitOutcomeUncertain => "Operation journal commit outcome is uncertain"
  | .journalRecoveryRequired => "Operation journal requires recovery"
  | .journalLockReleaseFailed => "Operation journal lock release failed"

inductive CommitState where
  | committed
  | notCommitted
  | uncertain
deriving DecidableEq

/-- `OperationJournalError` -/
structure JournalError where
  code : ErrorCode
  commitState : CommitState
deriving DecidableEq

/-- `createJournalError(code)` -/
def journalError (code : ErrorCode) : JournalError := { code, commitState := .notCommitted }

def found {A : Type} (value : Option A) (code : ErrorCode) : Except ErrorCode A :=
  match value with
  | some a => .ok a
  | none => .error code

def ensure (condition : Prop) [Decidable condition] (code : ErrorCode) : Except ErrorCode Unit :=
  if condition then .ok () else .error code

/-! ### Canonical values -/

def maxCanonicalBytes : Nat := 512 * 1024
def maxCanonicalDepth : Nat := 24
def maxCanonicalNodes : Nat := 8192

section Patterns

open RegExp

/-- `SENSITIVE_KEY_PATTERN` -/
def sensitiveKeyPattern : RegExp :=
  (alternatives [concat [literal "api", optional (oneOf "_-"), literal "key"],
    concat [literal "auth", optional (literal "json")], literal "credential", literal "password",
    concat [literal "private", optional (oneOf "_-"), literal "key"], literal "secret", literal "token"]).ignoreCase

/-- `SENSITIVE_VALUE_PATTERNS` -/
def sensitiveValuePatterns : List RegExp :=
  [concat [wordBoundary, alternatives [literal "sk", literal "sess", literal "rk"], literal "-",
      atLeast 8 (alphanumericOr "_-"), wordBoundary],
    concat [literal "eyJ", atLeast 8 (alphanumericOr "_-"), literal ".", atLeast 1 (alphanumericOr "_-"),
      literal ".", atLeast 0 (alphanumericOr "_-")],
    concat [wordBoundary,
      alternatives [concat [literal "AKIA", exactly 16 upperAlphanumeric],
        concat [literal "AIza", atLeast 20 (alphanumericOr "_-")],
        concat [literal "gh", oneOf "pousr", literal "_", atLeast 20 (alphanumericOr "")],
        concat [literal "github_pat_", atLeast 20 (alphanumericOr "_")]],
      wordBoundary],
    concat [wordBoundary, literal "xox", oneOf "baprs", literal "-", atLeast 10 (alphanumericOr "-"), wordBoundary],
    (concat [wordBoundary, literal "bearer", atLeast 1 (oneOf " \t"), atLeast 8 (alphanumericOr "._~+/-"),
      optional (literal "="), optional (literal "="), wordBoundary]).ignoreCase,
    concat [literal "-----BEGIN ", .star (concat [atLeast 1 upperAlphanumeric, literal " "]),
      literal "PRIVATE KEY-----"]]

end Patterns

def assertLosslessString (value : JsString) : Prop :=
  value.length ≤ maxCanonicalBytes ∧ Lossless value ∧ ∀ pattern ∈ sensitiveValuePatterns, pattern.test value = false

instance assertLosslessStringDecidable : DecidablePred assertLosslessString := fun _ =>
  inferInstanceAs (Decidable (_ ∧ _ ∧ _))

/-- The bytes of a unit that does not begin a surrogate pair, inside a JSON string. -/
def jsonUnitByteLength (u : UInt16) : Nat :=
  if u = 0x22 ∨ u = 0x5C then 2
  else if u ≤ 0x1F then if u = 0x08 ∨ u = 0x09 ∨ u = 0x0A ∨ u = 0x0C ∨ u = 0x0D then 2 else 6
  else if u ≤ 0x7F then 1
  else if u ≤ 0x7FF then 2
  else 3

def jsonUnitsByteLength : JsString → Nat
  | [] => 0
  | [u] => if isHighSurrogate u then 4 else jsonUnitByteLength u
  | u :: v :: rest =>
      if isHighSurrogate u then 4 + jsonUnitsByteLength rest
      else jsonUnitByteLength u + jsonUnitsByteLength (v :: rest)

def jsonStringByteLength (value : JsString) : Nat := 2 + jsonUnitsByteLength value

def consumeCanonicalBytes (budget : Budget) (bytes : Nat) : Option Budget := do
  ProviderState.ensure (budget.bytes + bytes ≤ maxCanonicalBytes)
  some { budget with bytes := budget.bytes + bytes }

/-- Count one more node. -/
def enterNode (depth : Nat) (budget : Budget) : Option Budget := do
  ProviderState.ensure (budget.nodes + 1 ≤ maxCanonicalNodes ∧ depth ≤ maxCanonicalDepth)
  some { budget with nodes := budget.nodes + 1 }

/-- Run the visits of the members of an object, each after its key. -/
def runMembers (depth : Nat) : List (JsString × Visit) → Budget → Option (List (JsString × JsValue) × Budget)
  | [], budget => some ([], budget)
  | (key, visit) :: visits, budget => do
      ProviderState.ensure (assertLosslessString key ∧ sensitiveKeyPattern.test key = false)
      let budget ← consumeCanonicalBytes budget (jsonStringByteLength key + 1)
      let (v, budget) ← visit depth budget
      let (ms, budget) ← runMembers depth visits budget
      some ((key, v) :: ms, budget)

mutual

/-- `canonicalize`, at a depth and within a budget. -/
def canonicalizeAt : JsValue → Visit
  | .null, depth, budget => do
      let budget ← enterNode depth budget
      let budget ← consumeCanonicalBytes budget 4
      some (.null, budget)
  | .bool b, depth, budget => do
      let budget ← enterNode depth budget
      let budget ← consumeCanonicalBytes budget (if b then 4 else 5)
      some (.bool b, budget)
  | .string s, depth, budget => do
      let budget ← enterNode depth budget
      ProviderState.ensure (assertLosslessString s)
      let budget ← consumeCanonicalBytes budget (jsonStringByteLength s)
      some (.string s, budget)
  | .number (.finite negative d), depth, budget => do
      let budget ← enterNode depth budget
      let budget ← consumeCanonicalBytes budget (byteLength (stringifyNumber (.finite negative d)))
      -- `-0` becomes `0`
      some (.number (.finite (negative && d.mantissa != 0) d), budget)
  | .number _, _, _ => none
  | .array items, depth, budget => do
      let budget ← enterNode depth budget
      ProviderState.ensure (items.length + budget.nodes ≤ maxCanonicalNodes)
      let budget ← consumeCanonicalBytes budget (2 + (items.length - 1))
      let (items, budget) ← runItems (depth + 1) (itemVisits items) budget
      some (.array items, budget)
  | .object members, depth, budget => do
      let budget ← enterNode depth budget
      ProviderState.ensure (members.map Prod.fst).Nodup
      ProviderState.ensure (members.length + budget.nodes ≤ maxCanonicalNodes)
      let budget ← consumeCanonicalBytes budget (2 + (members.length - 1))
      let (members, budget) ← runMembers (depth + 1) (sortByKey (memberVisits members)) budget
      some (.object (ofEntries members), budget)

def itemVisits : List JsValue → List Visit
  | [] => []
  | v :: vs => canonicalizeAt v :: itemVisits vs

def memberVisits : List (JsString × JsValue) → List (JsString × Visit)
  | [] => []
  | (key, v) :: ms => (key, canonicalizeAt v) :: memberVisits ms

end

/-- The serialized text of `canonicalBytes`. -/
def canonicalText (value : JsValue) : JsString := stringify value ++ [10]

/-- `canonicalBytes` -/
def canonicalBytes (value : JsValue) (code : ErrorCode) : Except ErrorCode JsString := do
  ensure (byteLength (canonicalText value) ≤ maxCanonicalBytes) code
  .ok (canonicalText value)

/-- `canonicalEqual`, of parts of a record: their texts are within the limit that holds for the record. -/
def canonicalEqual (left right : JsValue) : Prop := canonicalText left = canonicalText right

instance canonicalEqualDecidable (left right : JsValue) : Decidable (canonicalEqual left right) :=
  inferInstanceAs (Decidable (_ = _))

/-! ### Operations -/

structure OperationInput where
  binding : JsValue
  materialization : JsValue
  operationId : OpaqueId
  request : JsValue
  result : JsValue

def isObject : JsValue → Bool
  | .object _ => true
  | _ => false

def isNonemptyObject : JsValue → Bool
  | .object members => !members.isEmpty
  | _ => false

/-- `normalizeResult` -/
def normalizeResult (value : JsValue) (request : StorageMutationRequest) (budget : Budget) :
    Option (JsValue × Budget) := do
  let [checkpoint, mutation] ← exactDataFields value [js "checkpoint", js "mutation"] | none
  let descriptor ← assertCheckpointDescriptor checkpoint
  let _ ← assertStorageMutationResult mutation request
  ProviderState.ensure (request.target = .checkpoint descriptor.artifactId descriptor.checkpointId ∧
    descriptor.sessionId = request.sessionId ∧ descriptor.backendId = request.backendId)
  ProviderState.ensure (if request.operation = .checkpoint then
      descriptor.storageId = request.storageId ∧ descriptor.sourceFencingEpoch = request.fencingEpoch
    else descriptor.sourceFencingEpoch.val < request.fencingEpoch.val)
  canonicalizeAt (record [js "checkpoint", js "mutation"] [checkpoint, mutation]) 0 budget

/-- The fields of an operation; without `materializationRequired` there may be no materialization. -/
def operationFields (value : JsValue) (materializationRequired : Bool) : Option (List JsValue) :=
  if materializationRequired then
    exactDataFields value [js "binding", js "materialization", js "operationId", js "request", js "result"]
  else do
    let [binding, id, request, result] ←
      exactDataFields value [js "binding", js "operationId", js "request", js "result"] | none
    some [binding, .null, id, request, result]

/-- The checks of `normalizeOperationInput` that fail with the code of its caller. -/
def checkOperationInput (value : JsValue) (materializationRequired : Bool) : Option OperationInput := do
  let [binding, materialization, id, request, result] ← operationFields value materializationRequired | none
  let operationId ← canonicalOpaqueId id
  let mutation ← assertStorageMutationRequest request
  let (request, budget) ← canonicalizeAt request 0 ⟨0, 0⟩
  ProviderState.ensure (mutation.operationId = operationId ∧
    (mutation.operation = .checkpoint ∨ mutation.operation = .restore))
  let (binding, budget) ← canonicalizeAt binding 0 budget
  ProviderState.ensure (isObject binding = true)
  let (result, budget) ← normalizeResult result mutation budget
  if materializationRequired then
    let (materialization, _) ← canonicalizeAt materialization 0 budget
    ProviderState.ensure (isNonemptyObject materialization = true)
    some { binding, materialization, operationId, request, result }
  else
    some { binding, materialization := .null, operationId, request, result }

/-- The operation as `normalizeOperationInput` serializes it. -/
def inputJson (input : OperationInput) : JsValue :=
  record [js "binding", js "materialization", js "operationId", js "request", js "result"]
    [input.binding, input.materialization, textJson input.operationId, input.request, input.result]

def normalizeOperationInput (value : JsValue) (code : ErrorCode) (materializationRequired : Bool) :
    Except ErrorCode OperationInput := do
  let input ← found (checkOperationInput value materializationRequired) code
  let _ ← canonicalBytes (inputJson input) .invalidJournalRequest
  .ok input

/-! ### Records -/

inductive State where
  | prepared
  | materialized
  | committed
deriving DecidableEq

namespace State

def text : State → JsString
  | .prepared => js "prepared"
  | .materialized => js "materialized"
  | .committed => js "committed"

/-- `STATE_REVISIONS` -/
def revision : State → JsString
  | .prepared => js "1"
  | .materialized => js "2"
  | .committed => js "3"

def all : List State := [.prepared, .materialized, .committed]

end State

/-- The state of a record that was read. The text of an array with one element is the text of the element, so
`Object.hasOwn(STATE_REVISIONS, state)` accepts such arrays as well; none of them is a state. -/
inductive StateValue where
  | named (state : State)
  | boxed (inner : StateValue)
deriving DecidableEq

namespace StateValue

def key : StateValue → State
  | .named state => state
  | .boxed inner => inner.key

def json : StateValue → JsValue
  | .named state => .string state.text
  | .boxed inner => .array [inner.json]

def read : JsValue → Option StateValue
  | .string s => (State.all.find? fun state => state.text = s).map .named
  | .array [inner] => (read inner).map .boxed
  | _ => none

end StateValue

structure JournalRecord where
  operationId : OpaqueId
  state : StateValue
  binding : JsValue
  request : JsValue
  result : JsValue
  materialization : JsValue

def makeRecord (input : OperationInput) (state : StateValue) (materialization : JsValue) : JournalRecord :=
  { operationId := input.operationId, state, binding := input.binding, request := input.request,
    result := input.result, materialization }

def recordVersion : Nat := 1

/-- `RECORD_KEYS` -/
def recordKeys : List JsString :=
  [js "recordVersion", js "operationId", js "revision", js "state", js "binding", js "request", js "result",
    js "materialization"]

def JournalRecord.json (r : JournalRecord) : JsValue :=
  record recordKeys
    [.number (Js.ofNat recordVersion), textJson r.operationId, .string r.state.key.revision, r.state.json, r.binding,
      r.request, r.result, r.materialization]

/-- The bytes of a record in its file. -/
def JournalRecord.bytes (r : JournalRecord) : Bytes := encodeUtf8 (canonicalText r.json)

def checkRecordVersion (value : JsValue) : Except ErrorCode Unit := do
  let members ← found (inspectPlainObject value) .invalidJournalRecord
  let version ← found ((getMember members (js "recordVersion")).bind safeInteger) .invalidJournalRecord
  ensure (0 < version) .invalidJournalRecord
  ensure (version = recordVersion) .unsupportedJournalRecord

/-- The fields of a parsed record, before its text is compared. -/
def readRecord (value : JsValue) : Except ErrorCode JournalRecord := do
  checkRecordVersion value
  match exactDataFields value recordKeys with
  | some [_, operationId, revision, state, binding, request, result, materialization] => do
      let state ← found (StateValue.read state) .invalidJournalRecord
      ensure (isText state.key.revision revision = true) .invalidJournalRecord
      let operation :=
        if state = .named .prepared then
          record [js "binding", js "operationId", js "request", js "result"] [binding, operationId, request, result]
        else
          record [js "binding", js "operationId", js "request", js "result", js "materialization"]
            [binding, operationId, request, result, materialization]
      let input ← normalizeOperationInput operation .invalidJournalRecord (state ≠ .named .prepared)
      if state = .named .prepared then do
        ensure (materialization matches .null) .invalidJournalRecord
        .ok (makeRecord input state .null)
      else .ok (makeRecord input state input.materialization)
  | _ => .error .invalidJournalRecord

def parseRecord (bytes : Bytes) : Except ErrorCode JournalRecord := do
  ensure (bytes.length ≤ maxCanonicalBytes) .invalidJournalRecord
  let serialized := decodeUtf8 bytes
  ensure (encodeUtf8 serialized = bytes) .invalidJournalRecord
  let value ← found (parseJson serialized) .invalidJournalRecord
  let r ← readRecord value
  let text ← canonicalBytes r.json .invalidJournalRecord
  ensure (text = serialized) .invalidJournalRecord
  .ok r

/-- `sameOperation`, of a record and an operation or another record. -/
structure SameOperation (r : JournalRecord) (input : OperationInput) : Prop where
  operationId : r.operationId = input.operationId
  binding : canonicalEqual r.binding input.binding
  request : canonicalEqual r.request input.request
  result : canonicalEqual r.result input.result

instance sameOperationDecidable (r : JournalRecord) (input : OperationInput) : Decidable (SameOperation r input) :=
  decidable_of_iff (r.operationId = input.operationId ∧ canonicalEqual r.binding input.binding ∧
      canonicalEqual r.request input.request ∧ canonicalEqual r.result input.result)
    ⟨fun ⟨id, binding, request, result⟩ => ⟨id, binding, request, result⟩,
      fun same => ⟨same.operationId, same.binding, same.request, same.result⟩⟩

/-- `operationJournalRecordFilename` -/
def operationJournalRecordFilename (operationId : OpaqueId) : JsString :=
  js "operation-sha256-" ++
    hex (sha256 (encodeUtf8 (js "portable-codex-operation-journal\x00") ++ encodeUtf8 operationId.val)) ++ js ".json"

end PortableCodex.Journal
