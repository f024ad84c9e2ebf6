import PortableCodex.Js.Date
import PortableCodex.Js.Number

/-!
Arithmetic of JavaScript numbers: an operation rounds the exact result to the nearest number.
-/

namespace PortableCodex.Js

/-- The exact value of a finite number. -/
def exactValue (negative : Bool) (d : Magnitude) : ℚ := if negative then -d.value else d.value

/-- The number nearest to a value. -/
def roundNumber (q : ℚ) : JsNumber :=
  match roundMagnitude |q| with
  | some d => .finite (decide (q < 0)) d
  | none => .infinity (decide (q < 0))

namespace JsNumber

/-- `Number.isFinite` -/
def finite? : JsNumber → Option ℚ
  | .finite negative d => some (exactValue negative d)
  | _ => none

/-- `x * n` -/
def times (n : Nat) : JsNumber → JsNumber
  | .finite negative d => roundNumber (exactValue negative d * n)
  | x => x

/-- `x / n` -/
def dividedBy (n : Nat) : JsNumber → JsNumber
  | .finite negative d => roundNumber (exactValue negative d / n)
  | x => x

/-- `x < y` -/
def less : JsNumber → JsNumber → Bool
  | .nan, _ => false
  | _, .nan => false
  | .infinity negative, .infinity other => negative && !other
  | .infinity negative, .finite _ _ => negative
  | .finite _ _, .infinity negative => !negative
  | .finite negative d, .finite other e => decide (exactValue negative d < exactValue other e)

/-- The time of `new Date(x)`, unless it is invalid. -/
def timeClip : JsNumber → Option Int
  | .finite negative d =>
      if d.value ≤ maxTime then some (if negative then -(⌊d.value⌋₊ : Int) else ⌊d.value⌋₊) else none
  | _ => none

end JsNumber

example : ((ofNat 1709210096).times 1000).timeClip = some 1709210096000 := by decide +kernel

end PortableCodex.Js
