import PortableCodex.CanonicalJson.Equality
import PortableCodex.Js.NumberParse

/-!
What a `jsonb` column gives back.

A `jsonb` value keeps the exact decimal value of a number and the members of an object in an order of its own. So
what is parsed from it is the same as what was stored (`Stored.same`).
-/

namespace PortableCodex.CanonicalJson

open Js ProviderState

/-! ### Numbers -/

/-- The exact value of a number literal. -/
def numericValue (text : JsString) : Option ℚ := do
  let (negative, s) := parseSign text
  let (whole, s) ← parseInteger s
  let (fraction, s) ← parseFraction s
  let (exponent, _) ← parseExponent s
  let value := Decimal.value ⟨digitsValue (whole ++ fraction), exponent - fraction.length⟩
  some (if negative then -value else value)

theorem parseNumber_numericValue {text rest : JsString} {n : JsNumber} {q : ℚ} (numeric : numericValue text = some q)
    (parsed : parseNumber text = some (n, rest)) :
    ∃ negative d, n = ofDecimal negative d ∧ q = if negative then -d.value else d.value := by
  unfold numericValue at numeric
  unfold parseNumber at parsed
  obtain ⟨⟨whole, s₁⟩, int, numeric⟩ := Option.bind_eq_some_iff.mp numeric
  obtain ⟨⟨fraction, s₂⟩, frac, numeric⟩ := Option.bind_eq_some_iff.mp numeric
  obtain ⟨⟨exponent, s₃⟩, exp, numeric⟩ := Option.bind_eq_some_iff.mp numeric
  obtain ⟨⟨whole', t₁⟩, int', parsed⟩ := Option.bind_eq_some_iff.mp parsed
  cases int.symm.trans int'
  obtain ⟨⟨fraction', t₂⟩, frac', parsed⟩ := Option.bind_eq_some_iff.mp parsed
  cases frac.symm.trans frac'
  obtain ⟨⟨exponent', t₃⟩, exp', parsed⟩ := Option.bind_eq_some_iff.mp parsed
  cases exp.symm.trans exp'
  cases parsed
  cases numeric
  exact ⟨_, _, rfl, rfl⟩

theorem Decimal.value_nonneg (d : Decimal) : 0 ≤ d.value := by
  unfold Decimal.value
  positivity

theorem settleNumber_zero {negative : Bool} {d : Decimal} (zero : d.value = 0) :
    settleNumber (ofDecimal negative d) = .number (.finite false Magnitude.zero) := by
  rw [ofDecimal, zero, roundMagnitude, if_pos rfl]
  cases negative <;> rfl

/-- Literals of one exact value denote one number, up to the sign of zero. -/
theorem settleNumber_numeric {a b : Bool} {c d : Decimal}
    (same : (if a then -c.value else c.value) = if b then -d.value else d.value) :
    settleNumber (ofDecimal a c) = settleNumber (ofDecimal b d) := by
  have left := Decimal.value_nonneg c
  have right := Decimal.value_nonneg d
  by_cases zero : c.value = 0
  · have zero' : d.value = 0 := by
      rw [zero, neg_zero, ite_self] at same
      cases b with
      | true => exact neg_eq_zero.mp same.symm
      | false => exact same.symm
    rw [settleNumber_zero zero, settleNumber_zero zero']
  · cases a with
    | true =>
      cases b with
      | true => rw [ofDecimal_congr (neg_injective same)]
      | false =>
        exfalso
        have equal : -c.value = d.value := same
        exact zero (by linarith)
    | false =>
      cases b with
      | true =>
        exfalso
        have equal : c.value = -d.value := same
        exact zero (by linarith)
      | false => rw [ofDecimal_congr same]

/-! ### Values -/

/-- `w` can be read back from a `jsonb` column in which the text of `v` was stored. -/
inductive Stored : JsValue → JsValue → Prop where
  | null : Stored .null .null
  | bool (b : Bool) : Stored (.bool b) (.bool b)
  | string (s : JsString) : Stored (.string s) (.string s)
  | number {n m : JsNumber} {text : JsString} {q : ℚ} : numericValue (stringifyNumber n) = some q →
      numericValue text = some q → parseNumber text = some (m, []) → Stored (.number n) (.number m)
  | array {vs ws : List JsValue} : List.Forall₂ Stored vs ws → Stored (.array vs) (.array ws)
  | object {ms middle ns : List (JsString × JsValue)} : ms.map Prod.fst = middle.map Prod.fst →
      List.Forall₂ Stored (ms.map Prod.snd) (middle.map Prod.snd) → middle.Perm ns → Stored (.object ms) (.object ns)

theorem forall₂_same {vs ws : List JsValue} (all : List.Forall₂ Stored vs ws) (json : ∀ v ∈ vs, IsJson v)
    (ih : ∀ v ∈ vs, ∀ w, Stored v w → IsJson v → Same v w) : List.Forall₂ Same vs ws := by
  induction all with
  | nil => exact .nil
  | cons head _ more =>
    obtain ⟨first, rest⟩ := List.forall_mem_cons.mp json
    obtain ⟨here, later⟩ := List.forall_mem_cons.mp ih
    exact .cons (here _ head first) (more rest later)

/-- What is read back is the same as what was stored. -/
theorem Stored.same {v w : JsValue} (stored : Stored v w) (json : IsJson v) : Same v w := by
  induction v using JsValue.memberInduction generalizing w with
  | null =>
    cases stored
    exact .null
  | bool b =>
    cases stored
    exact .bool b
  | string s =>
    cases stored
    exact .string s
  | number n =>
    cases stored with
    | @number _ m text q numeric numeric' parsed =>
      cases n with
      | nan => cases json
      | infinity negative => cases json
      | finite negative d =>
        have written := @parseNumber_stringifyNumber negative d [] (by intro u never; cases never)
        rw [List.append_nil] at written
        obtain ⟨a, c, shape, value⟩ := parseNumber_numericValue numeric written
        obtain ⟨b, e, rfl, value'⟩ := parseNumber_numericValue numeric' parsed
        refine .number ?_
        rw [← settleNumber_numeric (value.symm.trans value'), ← shape, settleNumber, settleNumber, Bool.and_assoc,
          Bool.and_self]
  | array items ih =>
    cases stored with
    | @array _ ws all =>
      exact .array (forall₂_same all (isJson_array.mp json) fun v inside w stored json => ih v inside stored json)
  | object members ih =>
    cases stored with
    | @object _ middle ns keys all perm =>
      obtain ⟨-, json⟩ := isJson_object.mp json
      exact .object keys (forall₂_same all (forall_values.mpr json)
        (forall_values.mpr fun m inside w stored json => ih m inside stored json)) perm

end PortableCodex.CanonicalJson
