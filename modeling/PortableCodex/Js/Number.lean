import Mathlib.Data.Int.Log
import Mathlib.Data.Rat.Floor
import Mathlib.Tactic
import PortableCodex.Js.Text

/-!
JavaScript numbers: binary64 values, how `JSON.stringify` prints a finite one and how
`JSON.parse` reads a decimal literal.

A decimal is read by rounding its exact value to the nearest representable one, ties to the
even mantissa (`roundMagnitude`). A finite value is printed as the decimal with the fewest
digits that reads back as the value, the closest such decimal, in the layout of
`Number::toString` (`formatDecimal`). `roundMagnitude_shortest` is the law both readers and
writers rest on: the decimal printed rounds to the value it was printed for.
-/

namespace PortableCodex.Js

/-- The normal form of a finite magnitude `mantissa * 2 ^ exponent`. -/
def NormalForm (mantissa : Nat) (exponent : Int) : Prop :=
  mantissa < 2 ^ 53 ∧ -1074 ≤ exponent ∧ exponent ≤ 971 ∧ (2 ^ 52 ≤ mantissa ∨ exponent = -1074)

instance (m : Nat) (e : Int) : Decidable (NormalForm m e) := by
  unfold NormalForm; infer_instance

/-- A finite binary64 magnitude, in its unique normal form. -/
@[ext] structure Magnitude where
  mantissa : Nat
  exponent : Int
  normal : NormalForm mantissa exponent
deriving DecidableEq

/-- A JavaScript number. -/
inductive JsNumber where
  | nan
  | infinity (negative : Bool)
  | finite (negative : Bool) (magnitude : Magnitude)
deriving DecidableEq

namespace Magnitude

def zero : Magnitude := ⟨0, -1074, by decide⟩

/-- The exact value. -/
def value (d : Magnitude) : ℚ := d.mantissa * 2 ^ d.exponent

theorem value_nonneg (d : Magnitude) : 0 ≤ d.value := by unfold value; positivity

theorem eq_zero_of_mantissa {d : Magnitude} (h : d.mantissa = 0) : d = zero := by
  obtain ⟨-, -, -, large | least⟩ := d.normal
  · rw [h] at large
    exact absurd large (by decide)
  · exact Magnitude.ext h least

end Magnitude

/-! ### Rounding -/

/-- Round half to even. -/
def roundHalfEven (q : ℚ) : Nat :=
  let floor := ⌊q⌋₊
  let rest := q - floor
  if rest < 1 / 2 then floor
  else if 1 / 2 < rest then floor + 1
  else if floor % 2 = 0 then floor else floor + 1

/-- The exponent of the binade that `q` lies in, bounded below by the subnormal one. -/
def binadeExponent (q : ℚ) : Int := max (-1074) (Int.log 2 q - 52)

/-- The representable magnitude nearest to `q`, or `none` beyond the largest one. -/
def roundMagnitude (q : ℚ) : Option Magnitude :=
  if q = 0 then some .zero
  else
    let e := binadeExponent q
    let m := roundHalfEven (q / 2 ^ e)
    let (m, e) := if m = 2 ^ 53 then (2 ^ 52, e + 1) else (m, e)
    if h : NormalForm m e then some ⟨m, e, h⟩ else none

theorem roundHalfEven_natCast (n : Nat) : roundHalfEven (n : ℚ) = n := by
  simp [roundHalfEven]

theorem binadeExponent_value {d : Magnitude} (h : d.mantissa ≠ 0) :
    binadeExponent d.value = d.exponent := by
  obtain ⟨small, low, high, shape⟩ := d.normal
  have pos : (0 : ℚ) < d.value := by
    unfold Magnitude.value
    have : (0 : ℚ) < d.mantissa := by exact_mod_cast Nat.pos_of_ne_zero h
    positivity
  have upper : Int.log 2 d.value < 53 + d.exponent := by
    refine (Int.lt_zpow_iff_log_lt Nat.one_lt_two pos).mp ?_
    unfold Magnitude.value
    rw [Nat.cast_ofNat, zpow_add₀ two_ne_zero]
    have bound : (d.mantissa : ℚ) < 2 ^ (53 : ℤ) := by exact_mod_cast small
    exact mul_lt_mul_of_pos_right bound (by positivity)
  unfold binadeExponent
  rcases shape with large | least
  · have lower : 52 + d.exponent ≤ Int.log 2 d.value := by
      refine (Int.zpow_le_iff_le_log Nat.one_lt_two pos).mp ?_
      unfold Magnitude.value
      rw [Nat.cast_ofNat, zpow_add₀ two_ne_zero]
      have bound : (2 : ℚ) ^ (52 : ℤ) ≤ d.mantissa := by exact_mod_cast large
      exact mul_le_mul_of_nonneg_right bound (by positivity)
    omega
  · by_cases large : 2 ^ 52 ≤ d.mantissa
    · have lower : 52 + d.exponent ≤ Int.log 2 d.value := by
        refine (Int.zpow_le_iff_le_log Nat.one_lt_two pos).mp ?_
        unfold Magnitude.value
        rw [Nat.cast_ofNat, zpow_add₀ two_ne_zero]
        have bound : (2 : ℚ) ^ (52 : ℤ) ≤ d.mantissa := by exact_mod_cast large
        exact mul_le_mul_of_nonneg_right bound (by positivity)
      omega
    · have tiny : Int.log 2 d.value < 52 + d.exponent := by
        refine (Int.lt_zpow_iff_log_lt Nat.one_lt_two pos).mp ?_
        unfold Magnitude.value
        rw [Nat.cast_ofNat, zpow_add₀ two_ne_zero]
        have bound : (d.mantissa : ℚ) < 2 ^ (52 : ℤ) := by exact_mod_cast not_le.mp large
        exact mul_lt_mul_of_pos_right bound (by positivity)
      omega

/-- A representable value rounds to itself. -/
theorem roundMagnitude_value (d : Magnitude) : roundMagnitude d.value = some d := by
  by_cases h : d.mantissa = 0
  · have vanishes : d.value = 0 := by rw [Magnitude.value, h, Nat.cast_zero, zero_mul]
    rw [roundMagnitude, if_pos vanishes, Magnitude.eq_zero_of_mantissa h]
  · have nonzero : d.value ≠ 0 := by
      unfold Magnitude.value
      have : (d.mantissa : ℚ) ≠ 0 := by exact_mod_cast h
      positivity
    have quotient : d.value / 2 ^ d.exponent = d.mantissa := by
      unfold Magnitude.value
      field_simp
    have full : d.mantissa ≠ 2 ^ 53 := ne_of_lt d.normal.1
    simp only [roundMagnitude, if_neg nonzero, binadeExponent_value h, quotient,
      roundHalfEven_natCast, if_neg full, dif_pos d.normal]

/-! ### Shortest decimals -/

/-- A decimal `digits * 10 ^ exponent`. -/
structure Decimal where
  digits : Nat
  exponent : Int
deriving DecidableEq

def Decimal.value (d : Decimal) : ℚ := d.digits * 10 ^ d.exponent

/-- The exact value as a decimal: a binary fraction is a decimal fraction. -/
def exactDecimal (d : Magnitude) : Decimal :=
  if 0 ≤ d.exponent then ⟨d.mantissa * 2 ^ d.exponent.toNat, 0⟩
  else ⟨d.mantissa * 5 ^ (-d.exponent).toNat, d.exponent⟩

/-- `decimal` when it reads back as `d`. -/
def readsBack (d : Magnitude) (decimal : Decimal) : Option Decimal :=
  if roundMagnitude decimal.value = some d then some decimal else none

/-- The decimal of `k` significant digits closest to `d` among those that read back as `d`. -/
def closestDecimal (d : Magnitude) (k : Nat) : Option Decimal :=
  let n := Int.log 10 d.value + 1
  let scaled := d.value / 10 ^ (n - k)
  let low := readsBack d ⟨⌊scaled⌋₊, n - k⟩
  let high := readsBack d (if ⌊scaled⌋₊ + 1 = 10 ^ k then ⟨1, n⟩ else ⟨⌊scaled⌋₊ + 1, n - k⟩)
  if scaled - ⌊scaled⌋₊ < 1 / 2 then low.or high
  else if 1 / 2 < scaled - ⌊scaled⌋₊ then high.or low
  else if ⌊scaled⌋₊ % 2 = 0 then low.or high else high.or low

/-- The first `k` from `k` on whose closest decimal reads back. -/
def searchDecimal (d : Magnitude) : Nat → Nat → Option Decimal
  | 0, _ => none
  | fuel + 1, k => (closestDecimal d k).or (searchDecimal d fuel (k + 1))

/-- The shortest decimal that reads back as `d`; the exact one has enough digits. -/
def shortestDecimal (d : Magnitude) : Decimal :=
  (searchDecimal d (decimal (exactDecimal d).digits).length 1).getD (exactDecimal d)

theorem exactDecimal_value (d : Magnitude) : (exactDecimal d).value = d.value := by
  unfold exactDecimal Decimal.value Magnitude.value
  split
  · rename_i h
    have power : (2 : ℚ) ^ d.exponent = 2 ^ d.exponent.toNat := by
      rw [← zpow_natCast, Int.toNat_of_nonneg h]
    simp [power]
  · rename_i h
    have cast : ((-d.exponent).toNat : ℤ) = -d.exponent := Int.toNat_of_nonneg (by omega)
    have power : ((5 ^ (-d.exponent).toNat : ℕ) : ℚ) = 5 ^ (-d.exponent) := by
      rw [Nat.cast_pow, Nat.cast_ofNat, ← zpow_natCast, cast]
    have ten : (10 : ℚ) ^ d.exponent = 2 ^ d.exponent * 5 ^ d.exponent := by
      rw [← mul_zpow]; norm_num
    have five : (5 : ℚ) ^ (-d.exponent) * 5 ^ d.exponent = 1 := by
      rw [← zpow_add₀ (by norm_num), neg_add_cancel, zpow_zero]
    show ((d.mantissa * 5 ^ (-d.exponent).toNat : ℕ) : ℚ) * 10 ^ d.exponent = _
    rw [Nat.cast_mul, power, ten]
    linear_combination (d.mantissa : ℚ) * 2 ^ d.exponent * five

theorem roundMagnitude_of_readsBack {d : Magnitude} {a b : Decimal} (h : readsBack d a = some b) :
    roundMagnitude b.value = some d := by
  unfold readsBack at h
  split at h
  · rename_i back
    rwa [← Option.some.inj h]
  · cases h

theorem roundMagnitude_of_closest {d : Magnitude} {k : Nat} {b : Decimal}
    (h : closestDecimal d k = some b) : roundMagnitude b.value = some d := by
  unfold closestDecimal at h
  dsimp only at h
  split at h
  · rcases Option.or_eq_some_iff.mp h with low | ⟨-, high⟩
    · exact roundMagnitude_of_readsBack low
    · exact roundMagnitude_of_readsBack high
  split at h
  · rcases Option.or_eq_some_iff.mp h with high | ⟨-, low⟩
    · exact roundMagnitude_of_readsBack high
    · exact roundMagnitude_of_readsBack low
  split at h
  · rcases Option.or_eq_some_iff.mp h with low | ⟨-, high⟩
    · exact roundMagnitude_of_readsBack low
    · exact roundMagnitude_of_readsBack high
  · rcases Option.or_eq_some_iff.mp h with high | ⟨-, low⟩
    · exact roundMagnitude_of_readsBack high
    · exact roundMagnitude_of_readsBack low

theorem roundMagnitude_of_search {d : Magnitude} {fuel k : Nat} {b : Decimal}
    (h : searchDecimal d fuel k = some b) : roundMagnitude b.value = some d := by
  induction fuel generalizing k with
  | zero => cases h
  | succ fuel ih =>
      rcases Option.or_eq_some_iff.mp h with here | ⟨-, later⟩
      · exact roundMagnitude_of_closest here
      · exact ih later

/-- The printed decimal reads back as the value it was printed for. -/
theorem roundMagnitude_shortest (d : Magnitude) :
    roundMagnitude (shortestDecimal d).value = some d := by
  unfold shortestDecimal
  cases h : searchDecimal d (decimal (exactDecimal d).digits).length 1 with
  | none => rw [Option.getD_none, exactDecimal_value, roundMagnitude_value]
  | some b => exact roundMagnitude_of_search h

/-! ### Layout -/

def zeros (n : Nat) : JsString := List.replicate n 48

/-- The sign and digits after the `e` of an exponent. -/
def formatExponent (e : Int) : JsString :=
  js "e" ++ (if e < 0 then js "-" else js "+") ++ decimal e.natAbs

/-- `Number::toString` of the decimal `digits * 10 ^ exponent`. -/
def formatDecimal (d : Decimal) : JsString :=
  let digits := decimal d.digits
  let n : Int := digits.length + d.exponent
  if d.digits = 0 then js "0"
  else if 0 ≤ d.exponent ∧ n ≤ 21 then digits ++ zeros d.exponent.toNat
  else if 0 < n ∧ n ≤ 21 then digits.take n.toNat ++ js "." ++ digits.drop n.toNat
  else if -6 < n ∧ n ≤ 0 then js "0." ++ zeros (-n).toNat ++ digits
  else if digits.length = 1 then digits ++ formatExponent (n - 1)
  else digits.take 1 ++ js "." ++ digits.drop 1 ++ formatExponent (n - 1)

/-- `JSON.stringify` of a number. -/
def stringifyNumber : JsNumber → JsString
  | .nan => js "null"
  | .infinity _ => js "null"
  | .finite negative d =>
      if d.mantissa = 0 then js "0"
      else (if negative then js "-" else []) ++ formatDecimal (shortestDecimal d)

/-- The number a decimal literal denotes. -/
def ofDecimal (negative : Bool) (d : Decimal) : JsNumber :=
  match roundMagnitude d.value with
  | some m => .finite negative m
  | none => .infinity negative

/-! ### Integers -/

/-- The number of a nonnegative integer. -/
def ofNat (n : Nat) : JsNumber := ofDecimal false ⟨n, 0⟩

/-- `Number.isSafeInteger(x)` with `x >= 0`, as the integer. -/
def safeNat? : JsNumber → Option Nat
  | .finite negative d =>
      if (negative = false ∨ d.mantissa = 0) ∧ d.value = ⌊d.value⌋₊ ∧ ⌊d.value⌋₊ < 2 ^ 53 then
        some ⌊d.value⌋₊
      else none
  | _ => none

/-- A safe integer is represented exactly. -/
theorem exists_magnitude {n : Nat} (h : n < 2 ^ 53) : ∃ d : Magnitude, d.value = n := by
  by_cases zero : n = 0
  · exact ⟨Magnitude.zero, by simp [Magnitude.value, Magnitude.zero, zero]⟩
  · have log : n.log2 ≤ 52 := by
      have := (Nat.log2_lt zero).mpr h
      omega
    have lower : 2 ^ n.log2 ≤ n := Nat.log2_self_le zero
    have upper : n < 2 ^ (n.log2 + 1) := Nat.lt_log2_self
    have scale : 2 ^ n.log2 * 2 ^ (52 - n.log2) = 2 ^ 52 := by rw [← pow_add]; congr 1; omega
    have scale' : 2 ^ (n.log2 + 1) * 2 ^ (52 - n.log2) = 2 ^ 53 := by rw [← pow_add]; congr 1; omega
    have positive : 0 < 2 ^ (52 - n.log2) := Nat.two_pow_pos _
    have normal : NormalForm (n * 2 ^ (52 - n.log2)) (-(52 - n.log2 : Nat)) := by
      refine ⟨?_, by omega, by omega, .inl ?_⟩
      · rw [← scale']
        exact (Nat.mul_lt_mul_right positive).mpr upper
      · rw [← scale]
        exact Nat.mul_le_mul_right _ lower
    refine ⟨⟨_, _, normal⟩, ?_⟩
    rw [Magnitude.value, Nat.cast_mul, Nat.cast_pow, Nat.cast_ofNat, zpow_neg, zpow_natCast]
    exact mul_inv_cancel_right₀ (by positivity) _

theorem ofNat_eq {n : Nat} (h : n < 2 ^ 53) : ∃ d : Magnitude, d.value = n ∧ ofNat n = .finite false d := by
  obtain ⟨d, value⟩ := exists_magnitude h
  have decimal : Decimal.value ⟨n, 0⟩ = d.value := by rw [value, Decimal.value, zpow_zero, mul_one]
  exact ⟨d, value, by rw [ofNat, ofDecimal, decimal, roundMagnitude_value]⟩

@[simp] theorem safeNat?_ofNat {n : Nat} (h : n < 2 ^ 53) : safeNat? (ofNat n) = some n := by
  obtain ⟨d, value, finite⟩ := ofNat_eq h
  rw [finite, safeNat?, value, Nat.floor_natCast, if_pos ⟨.inl rfl, rfl, h⟩]

example : stringifyNumber (ofNat 1024) = js "1024" := by decide +kernel
example : stringifyNumber (ofDecimal true ⟨1, 23⟩) = js "-1e+23" := by decide +kernel
example : stringifyNumber (ofDecimal false ⟨125, -8⟩) = js "0.00000125" := by decide +kernel
example : stringifyNumber (ofDecimal false ⟨5, -324⟩) = js "5e-324" := by decide +kernel
example : stringifyNumber (ofDecimal false ⟨1, -1⟩) = js "0.1" := by decide +kernel

end PortableCodex.Js
