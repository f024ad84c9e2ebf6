import PortableCodex.Js.RegExp
import PortableCodex.ProviderState.Canonical

/-!
The JSON of operations in the session authority: `canonicalJsonValue` and `canonicalJsonObject`.

`canonicalJsonValue` copies a value within a budget of bytes, nodes and depth. The keys of an object are charged
in their own order; the values behind them are visited in the order of the sorted keys.
-/

namespace PortableCodex.Authority

open Js
open ProviderState (Budget Visit byteLength ensure runItems)

/-- `MAX_OPERATION_JSON_BYTES` -/
def maxOperationJsonBytes : Nat := 65536
/-- `MAX_OPERATION_JSON_DEPTH` -/
def maxOperationJsonDepth : Nat := 32
/-- `MAX_OPERATION_JSON_NODES` -/
def maxOperationJsonNodes : Nat := 4096

section Patterns

open RegExp

/-- `\n`, `\r`, `\u2028` and `\u2029` -/
def isLineTerminator (u : UInt16) : Bool := u = 10 || u = 13 || u = 0x2028 || u = 0x2029

/-- `.` under the `u` flag, on a text without unpaired surrogates: a pair is one character. -/
def anyCharacter : RegExp :=
  .either (.unit fun u => !isHighSurrogate u && !isLowSurrogate u && !isLineTerminator u)
    (.seq (.unit isHighSurrogate) (.unit isLowSurrogate))

/-- `SENSITIVE_OPERATION_KEY_PATTERN` -/
def sensitiveOperationKeyPattern : RegExp :=
  (alternatives [concat [literal "api", optional (oneOf "_-"), literal "key"],
    concat [literal "auth", optional (alternatives [literal "json", literal "orization"])], literal "cookie",
    literal "credential", literal "password", concat [literal "private", optional anyCharacter, literal "key"],
    literal "secret", literal "token"]).ignoreCase

end Patterns

def consumeOperationJsonBytes (budget : Budget) (additionalBytes : Nat) : Option Budget := do
  ensure (budget.bytes + additionalBytes ≤ maxOperationJsonBytes)
  some { budget with bytes := budget.bytes + additionalBytes }

/-- The bytes of a unit that is no surrogate. -/
def unitBytes (unit : UInt16) : Nat :=
  if unit = 0x22 ∨ unit = 0x5C then 2
  else if unit ≤ 0x1F then
    if unit = 0x08 ∨ unit = 0x09 ∨ unit = 0x0A ∨ unit = 0x0C ∨ unit = 0x0D then 2 else 6
  else if unit ≤ 0x7F then 1
  else if unit ≤ 0x7FF then 2
  else 3

/-- The loop of `consumeOperationJsonString`. -/
def consumeUnits : JsString → Budget → Option Budget
  | [], budget => some budget
  | [unit], budget => do
      ensure (unit ≠ 0 ∧ isHighSurrogate unit = false ∧ isLowSurrogate unit = false)
      consumeOperationJsonBytes budget (unitBytes unit)
  | unit :: next :: rest, budget =>
      if isHighSurrogate unit then do
        ensure (isLowSurrogate next = true)
        let budget ← consumeOperationJsonBytes budget 4
        consumeUnits rest budget
      else do
        ensure (unit ≠ 0 ∧ isLowSurrogate unit = false)
        let budget ← consumeOperationJsonBytes budget (unitBytes unit)
        consumeUnits (next :: rest) budget

def consumeOperationJsonString (value : JsString) (budget : Budget) : Option Budget := do
  let budget ← consumeOperationJsonBytes budget 2
  consumeUnits value budget

/-- `authMode` is the one key allowed although it is shaped like a secret. -/
def isAllowedKey (key : JsString) : Prop := key = js "authMode" ∨ sensitiveOperationKeyPattern.test key = false

instance isAllowedKeyDecidable : DecidablePred isAllowedKey := fun _ => inferInstanceAs (Decidable (_ ∨ _))

/-- Charge the keys of an object, each with its colon. -/
def consumeKeys : List JsString → Budget → Option Budget
  | [], budget => some budget
  | key :: keys, budget => do
      let budget ← consumeOperationJsonString key budget
      ensure (isAllowedKey key)
      let budget ← consumeOperationJsonBytes budget 1
      consumeKeys keys budget

/-- Run the visits of the values of an object. -/
def runValues (depth : Nat) : List (JsString × Visit) → Budget → Option (List (JsString × JsValue) × Budget)
  | [], budget => some ([], budget)
  | (key, visit) :: visits, budget => do
      let (v, budget) ← visit depth budget
      let (ms, budget) ← runValues depth visits budget
      some ((key, v) :: ms, budget)

/-- Count one more node. -/
def enterNode (depth : Nat) (budget : Budget) : Option Budget := do
  ensure (budget.nodes + 1 ≤ maxOperationJsonNodes ∧ depth ≤ maxOperationJsonDepth)
  some { budget with nodes := budget.nodes + 1 }

mutual

/-- `canonicalJsonValue`, at a depth and within a budget. -/
def canonicalJsonValue : JsValue → Visit
  | .null, depth, budget => do
      let budget ← enterNode depth budget
      let budget ← consumeOperationJsonBytes budget 4
      some (.null, budget)
  | .bool b, depth, budget => do
      let budget ← enterNode depth budget
      let budget ← consumeOperationJsonBytes budget (if b then 4 else 5)
      some (.bool b, budget)
  | .string s, depth, budget => do
      let budget ← enterNode depth budget
      let budget ← consumeOperationJsonString s budget
      some (.string s, budget)
  | .number (.finite negative d), depth, budget => do
      let budget ← enterNode depth budget
      -- `-0` becomes `0`
      let normalized := JsNumber.finite (negative && d.mantissa != 0) d
      let budget ← consumeOperationJsonBytes budget (byteLength (stringifyNumber normalized))
      some (.number normalized, budget)
  | .number _, _, _ => none
  | .array items, depth, budget => do
      let budget ← enterNode depth budget
      ensure (items.length + budget.nodes ≤ maxOperationJsonNodes)
      let budget ← consumeOperationJsonBytes budget (2 + (items.length - 1))
      let (items, budget) ← runItems (depth + 1) (itemVisits items) budget
      some (.array items, budget)
  | .object members, depth, budget => do
      let budget ← enterNode depth budget
      ensure (members.map Prod.fst).Nodup
      ensure (members.length + budget.nodes ≤ maxOperationJsonNodes)
      let budget ← consumeOperationJsonBytes budget (2 + (members.length - 1))
      let budget ← consumeKeys (members.map Prod.fst) budget
      let (members, budget) ← runValues (depth + 1) (sortByKey (memberVisits members)) budget
      some (.object (ofEntries members), budget)

def itemVisits : List JsValue → List Visit
  | [] => []
  | v :: vs => canonicalJsonValue v :: itemVisits vs

def memberVisits : List (JsString × JsValue) → List (JsString × Visit)
  | [] => []
  | (key, v) :: ms => (key, canonicalJsonValue v) :: memberVisits ms

end

def isObject : JsValue → Bool
  | .object _ => true
  | _ => false

/-- `canonicalJsonObject` -/
def canonicalJsonObject (value : JsValue) : Option JsValue := do
  let (canonical, budget) ← canonicalJsonValue value 0 ⟨0, 0⟩
  ensure (isObject canonical = true)
  let serialized := stringify canonical
  ensure (byteLength serialized = budget.bytes ∧ byteLength serialized ≤ maxOperationJsonBytes)
  some canonical

end PortableCodex.Authority
