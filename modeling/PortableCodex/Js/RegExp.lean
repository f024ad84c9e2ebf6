import PortableCodex.Js.Text

/-!
Regular expressions, as far as the patterns of the program use them.

An expression maps a place in a text to the places where a match from there can end. The classes of the
patterns are ASCII, so code units do what code points do under the `u` flag. Under the `i` flag a unit
stands for its simple case folding.
-/

namespace PortableCodex.Js

/-- A place in a text: the unit before it, and the text after it. -/
structure Place where
  before : Option UInt16
  rest : JsString

inductive RegExp where
  | empty
  | unit (accepts : UInt16 → Bool)
  | seq (first second : RegExp)
  | either (first second : RegExp)
  | star (body : RegExp)
  | boundary (isWord : UInt16 → Bool)

/-- Repeated steps that each consume something. -/
def repeatEnds (ends : Place → List Place) : Nat → Place → List Place
  | 0, place => [place]
  | fuel + 1, place =>
      place :: ((ends place).filter fun next => next.rest.length < place.rest.length).flatMap (repeatEnds ends fuel)

namespace RegExp

def ends : RegExp → Place → List Place
  | .empty, place => [place]
  | .unit accepts, place =>
      match place.rest with
      | [] => []
      | u :: rest => if accepts u then [⟨some u, rest⟩] else []
  | .seq first second, place => (first.ends place).flatMap second.ends
  | .either first second, place => first.ends place ++ second.ends place
  | .star body, place => repeatEnds body.ends place.rest.length place
  | .boundary isWord, place =>
      if place.before.any isWord = place.rest.head?.any isWord then [] else [place]

/-- A match that starts in the text after a unit. -/
def testFrom (pattern : RegExp) : Option UInt16 → JsString → Bool
  | before, [] => !(pattern.ends ⟨before, []⟩).isEmpty
  | before, u :: rest => !(pattern.ends ⟨before, u :: rest⟩).isEmpty || pattern.testFrom (some u) rest

/-- `pattern.test(text)` -/
def test (pattern : RegExp) (text : JsString) : Bool := pattern.testFrom none text

/-! ### Patterns -/

def oneOf (chars : String) : RegExp := .unit fun u => u ∈ js chars

def concat : List RegExp → RegExp
  | [] => .empty
  | r :: rs => .seq r (concat rs)

def alternatives : List RegExp → RegExp
  | [] => .unit fun _ => false
  | [r] => r
  | r :: rs => .either r (alternatives rs)

def literal (text : String) : RegExp := concat ((js text).map fun u => .unit fun v => v = u)

def optional (r : RegExp) : RegExp := .either r .empty

def exactly (n : Nat) (r : RegExp) : RegExp := concat (List.replicate n r)

def atLeast (n : Nat) (r : RegExp) : RegExp := .seq (exactly n r) (.star r)

/-- The simple case folding of a unit, where it folds to an ASCII letter. -/
def foldCase (u : UInt16) : UInt16 :=
  if 65 ≤ u.toNat ∧ u.toNat ≤ 90 then u + 32
  else if u = 0x17F then 115
  else if u = 0x212A then 107
  else u

/-- The expression under the `i` flag, written in lower case. -/
def ignoreCase : RegExp → RegExp
  | .empty => .empty
  | .unit accepts => .unit fun u => accepts (foldCase u)
  | .seq first second => .seq first.ignoreCase second.ignoreCase
  | .either first second => .either first.ignoreCase second.ignoreCase
  | .star body => .star body.ignoreCase
  | .boundary isWord => .boundary fun u => isWord (foldCase u)

/-- `\w` -/
def isWord (u : UInt16) : Bool := isAlphanumeric u || u = 95

/-- `\b` -/
def wordBoundary : RegExp := .boundary isWord

/-- `[0-9A-Za-z]` with further characters. -/
def alphanumericOr (chars : String) : RegExp := .unit fun u => isAlphanumeric u || u ∈ js chars

/-- `[0-9A-Z]` -/
def upperAlphanumeric : RegExp := .unit fun u => isDigit u || (65 ≤ u.toNat && u.toNat ≤ 90)

end RegExp

open RegExp in
example : (concat [wordBoundary, literal "b", atLeast 1 (literal "a"), wordBoundary]).test (js "a baa.") = true ∧
    (concat [wordBoundary, literal "b", atLeast 1 (literal "a"), wordBoundary]).test (js "abaa baac") = false := by
  decide

end PortableCodex.Js
