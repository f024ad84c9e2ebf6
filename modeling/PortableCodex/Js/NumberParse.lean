import PortableCodex.Js.Number

/-!
Reading the number grammar of JSON, and the round trip with `stringifyNumber`.

`parseNumber` splits off the longest number literal; `parseNumber_stringifyNumber` says that a
printed finite number, followed by anything that cannot continue a literal, is read back as
itself, with the sign of zero dropped.
-/

namespace PortableCodex.Js

/-- The optional sign. -/
def parseSign : JsString → Bool × JsString
  | 45 :: rest => (true, rest)
  | s => (false, s)

/-- The optional fraction: its digits and what follows. -/
def parseFraction : JsString → Option (JsString × JsString)
  | 46 :: rest =>
      if rest.takeWhile isDigit = [] then none
      else some (rest.takeWhile isDigit, rest.dropWhile isDigit)
  | s => some ([], s)

/-- The sign of an exponent; `+` may be written. -/
def parseExponentSign : JsString → Bool × JsString
  | 45 :: rest => (true, rest)
  | 43 :: rest => (false, rest)
  | s => (false, s)

/-- The optional exponent and what follows. -/
def parseExponent : JsString → Option (Int × JsString)
  | [] => some (0, [])
  | u :: rest =>
      if u = 101 ∨ u = 69 then
        let (negative, digits) := parseExponentSign rest
        let value : Int := digitsValue (digits.takeWhile isDigit)
        if digits.takeWhile isDigit = [] then none
        else some (if negative then -value else value, digits.dropWhile isDigit)
      else some (0, u :: rest)

/-- The integer part: digits without a leading zero. -/
def parseInteger (s : JsString) : Option (JsString × JsString) :=
  let digits := s.takeWhile isDigit
  if digits = [] ∨ (digits.head? = some 48 ∧ digits.length ≠ 1) then none
  else some (digits, s.dropWhile isDigit)

/-- The number literal at the head of the text. -/
def parseNumber (s : JsString) : Option (JsNumber × JsString) := do
  let (negative, s) := parseSign s
  let (whole, s) ← parseInteger s
  let (fraction, s) ← parseFraction s
  let (exponent, s) ← parseExponent s
  some (ofDecimal negative ⟨digitsValue (whole ++ fraction), exponent - fraction.length⟩, s)

/-- The text cannot continue a number literal. -/
def EndsNumber (s : JsString) : Prop :=
  ∀ u ∈ s.head?, isDigit u = false ∧ u ≠ 46 ∧ u ≠ 101 ∧ u ≠ 69

example : parseNumber (js "-12.5e1,") = some (ofDecimal true ⟨125, 0⟩, js ",") := by decide +kernel

/-! ### Runs of digits -/

theorem EndsNumber.noDigit {s : JsString} (h : EndsNumber s) : ∀ u ∈ s.head?, isDigit u = false :=
  fun u hu => (h u hu).1

section Runs

variable {ds rest : JsString}

theorem takeWhile_digits (all : ∀ u ∈ ds, isDigit u = true) (stop : ∀ u ∈ rest.head?, isDigit u = false) :
    (ds ++ rest).takeWhile isDigit = ds := by
  rw [List.takeWhile_append_of_pos all]
  cases rest with
  | nil => simp
  | cons u rest => simp [stop u rfl]

theorem dropWhile_digits (all : ∀ u ∈ ds, isDigit u = true) (stop : ∀ u ∈ rest.head?, isDigit u = false) :
    (ds ++ rest).dropWhile isDigit = rest := by
  rw [List.dropWhile_append_of_pos all]
  cases rest with
  | nil => rfl
  | cons u rest => simp [stop u rfl]

end Runs

theorem digitsValue_append_digits (a b : JsString) :
    digitsValue (a ++ b) = digitsValue a * 10 ^ b.length + digitsValue b := by
  induction b using List.reverseRecOn with
  | nil => simp [digitsValue]
  | append_singleton b u ih =>
      rw [← List.append_assoc, digitsValue_append, ih, digitsValue_append, List.length_append,
        List.length_singleton, pow_succ]
      ring

@[simp] theorem digitsValue_zeros (n : Nat) : digitsValue (zeros n) = 0 := by
  induction n with
  | zero => rfl
  | succ n ih =>
      unfold zeros at ih ⊢
      rw [List.replicate_succ', digitsValue_append, ih]
      rfl

@[simp] theorem zeros_length (n : Nat) : (zeros n).length = n := List.length_replicate

theorem zeros_all_digits (n : Nat) : ∀ u ∈ zeros n, isDigit u = true := by
  intro u hu
  rw [List.eq_of_mem_replicate hu]
  decide

theorem decimal_head {n : Nat} (h : n ≠ 0) : (decimal n).head? ≠ some 48 := by
  unfold decimal
  rw [if_neg h, List.head?_reverse]
  intro last
  have nonempty : Nat.digits 10 n ≠ [] := Nat.digits_ne_nil_iff_ne_zero.mpr h
  rw [List.getLast?_map, List.getLast?_eq_some_getLast nonempty, Option.map_some,
    Option.some.injEq] at last
  have small : (Nat.digits 10 n).getLast nonempty < 10 :=
    Nat.digits_lt_base (by decide) (List.getLast_mem nonempty)
  have zero : (Nat.digits 10 n).getLast nonempty = 0 := by
    have := congrArg UInt16.toNat last
    rw [digitUnit_toNat small] at this
    simpa using this
  exact Nat.getLast_digit_ne_zero 10 h zero

/-! ### The parts of a printed number -/

theorem parseSign_digit {s : JsString} (h : ∀ u ∈ s.head?, isDigit u = true) :
    parseSign s = (false, s) := by
  unfold parseSign
  split
  · exact absurd (h 45 rfl) (by decide)
  · rfl

theorem parseInteger_append {ds rest : JsString} (all : ∀ u ∈ ds, isDigit u = true)
    (stop : ∀ u ∈ rest.head?, isDigit u = false) (nonempty : ds ≠ [])
    (lead : ds.head? ≠ some 48 ∨ ds.length = 1) : parseInteger (ds ++ rest) = some (ds, rest) := by
  unfold parseInteger
  rw [takeWhile_digits all stop, dropWhile_digits all stop, if_neg]
  rintro (empty | ⟨zero, long⟩)
  · exact nonempty empty
  · rcases lead with other | one
    · exact other zero
    · exact long one

theorem parseFraction_append {ds rest : JsString} (all : ∀ u ∈ ds, isDigit u = true)
    (stop : ∀ u ∈ rest.head?, isDigit u = false) (nonempty : ds ≠ []) :
    parseFraction (46 :: (ds ++ rest)) = some (ds, rest) := by
  simp only [parseFraction, takeWhile_digits all stop, dropWhile_digits all stop, if_neg nonempty]

theorem parseFraction_none {s : JsString} (h : s.head? ≠ some 46) : parseFraction s = some ([], s) := by
  unfold parseFraction
  split
  · exact absurd rfl h
  · rfl

theorem parseExponent_none {s : JsString} (h : EndsNumber s) : parseExponent s = some (0, s) := by
  cases s with
  | nil => rfl
  | cons u rest =>
      obtain ⟨-, -, notLower, notUpper⟩ := h u rfl
      simp only [parseExponent, notLower, notUpper, or_self, if_false]

theorem formatExponent_head (e : Int) (rest : JsString) :
    (formatExponent e ++ rest).head? = some 101 := rfl

theorem parseExponent_format (e : Int) {rest : JsString} (h : EndsNumber rest) :
    parseExponent (formatExponent e ++ rest) = some (e, rest) := by
  have all := decimal_all_digits e.natAbs
  have nonempty := decimal_ne_nil e.natAbs
  have sign : parseExponentSign ((if e < 0 then js "-" else js "+") ++ (decimal e.natAbs ++ rest)) =
      (decide (e < 0), decimal e.natAbs ++ rest) := by
    split
    · rename_i negative
      rw [decide_eq_true negative]
      rfl
    · rename_i nonneg
      rw [decide_eq_false nonneg]
      rfl
  have value : (if e < 0 then -(e.natAbs : Int) else e.natAbs) = e := by split <;> omega
  show parseExponent (101 :: ((if e < 0 then js "-" else js "+") ++ decimal e.natAbs ++ rest)) = _
  rw [List.append_assoc]
  simp only [parseExponent, true_or, if_true, sign, takeWhile_digits all h.noDigit,
    dropWhile_digits all h.noDigit, if_neg nonempty, digitsValue_decimal, decide_eq_true_eq, value]

/-! ### The round trip -/

theorem ofDecimal_congr {negative : Bool} {a b : Decimal} (h : a.value = b.value) :
    ofDecimal negative a = ofDecimal negative b := by
  simp only [ofDecimal, h]

/-- The parts of a literal give the number it denotes. -/
theorem parseNumber_parts {s s₁ s₂ s₃ rest whole fraction : JsString} {negative : Bool} {e : Int}
    (sign : parseSign s = (negative, s₁)) (int : parseInteger s₁ = some (whole, s₂))
    (frac : parseFraction s₂ = some (fraction, s₃)) (exp : parseExponent s₃ = some (e, rest)) :
    parseNumber s =
      some (ofDecimal negative ⟨digitsValue (whole ++ fraction), e - fraction.length⟩, rest) := by
  unfold parseNumber
  rw [sign]
  dsimp only
  rw [int, Option.bind_eq_bind, Option.bind_some]
  dsimp only
  rw [frac, Option.bind_eq_bind, Option.bind_some]
  dsimp only
  rw [exp, Option.bind_some]

/-- The magnitude part of a literal: after the sign, a formatted decimal denotes its value. -/
theorem parts_formatDecimal {d : Decimal} (nonzero : d.digits ≠ 0) {rest : JsString}
    (h : EndsNumber rest) :
    ∃ whole s₂ fraction s₃ e,
      parseInteger (formatDecimal d ++ rest) = some (whole, s₂) ∧
      parseFraction s₂ = some (fraction, s₃) ∧ parseExponent s₃ = some (e, rest) ∧
      Decimal.value ⟨digitsValue (whole ++ fraction), e - fraction.length⟩ = d.value := by
  have all := decimal_all_digits d.digits
  have nonempty := decimal_ne_nil d.digits
  have lead := decimal_head nonzero
  have split_all : ∀ n, (∀ u ∈ (decimal d.digits).take n, isDigit u = true) ∧
      ∀ u ∈ (decimal d.digits).drop n, isDigit u = true :=
    fun n => ⟨fun u hu => all u (List.mem_of_mem_take hu), fun u hu => all u (List.mem_of_mem_drop hu)⟩
  have positive : 0 < (decimal d.digits).length := List.length_pos_iff.mpr nonempty
  unfold formatDecimal
  dsimp only
  rw [if_neg nonzero]
  split
  · -- an integer: trailing zeros for the exponent
    rename_i integer
    refine ⟨decimal d.digits ++ zeros d.exponent.toNat, rest, [], rest, 0,
      parseInteger_append ?_ h.noDigit (by simp [nonempty]) (.inl ?_),
      parseFraction_none fun dot => ((h 46 dot).2.1 rfl), parseExponent_none h, ?_⟩
    · intro u hu
      rcases List.mem_append.mp hu with digit | zero
      · exact all u digit
      · exact zeros_all_digits _ u zero
    · rwa [List.head?_append_of_ne_nil _ nonempty]
    · rw [List.append_nil, digitsValue_append_digits, digitsValue_decimal, digitsValue_zeros, zeros_length]
      have cast : (10 : ℚ) ^ d.exponent = 10 ^ d.exponent.toNat := by
        rw [← zpow_natCast, Int.toNat_of_nonneg integer.1]
      simp [Decimal.value, cast]
  split
  · -- the point falls inside the digits
    rename_i integer point
    have inside : d.exponent < 0 := by omega
    have count : ((decimal d.digits).length + d.exponent).toNat < (decimal d.digits).length := by omega
    have before : (decimal d.digits).take ((decimal d.digits).length + d.exponent).toNat ≠ [] := by
      rw [Ne, List.take_eq_nil_iff]
      push Not
      exact ⟨by omega, nonempty⟩
    have after : (decimal d.digits).drop ((decimal d.digits).length + d.exponent).toNat ≠ [] := by
      rw [Ne, List.drop_eq_nil_iff]
      omega
    refine ⟨(decimal d.digits).take ((decimal d.digits).length + d.exponent).toNat, _, _, rest, 0, ?_,
      parseFraction_append (split_all _).2 h.noDigit after, parseExponent_none h, ?_⟩
    · rw [List.append_assoc, List.append_assoc]
      refine parseInteger_append (split_all _).1 ?_ before (.inl ?_)
      · intro u hu
        cases hu
        decide
      · rwa [List.head?_take, if_neg (by omega)]
    · rw [List.take_append_drop, digitsValue_decimal, List.length_drop]
      congr 2
      omega
  split
  · -- leading zeros after the point
    rename_i integer point leading
    refine ⟨[48], _, zeros (-((decimal d.digits).length + d.exponent)).toNat ++ decimal d.digits, rest, 0,
      parseInteger_append (by decide : ∀ u ∈ js "0", isDigit u = true) ?_ (by decide) (.inr rfl),
      parseFraction_append ?_ h.noDigit (by simp [nonempty]), parseExponent_none h, ?_⟩
    · rintro u ⟨⟩
      decide
    · intro u hu
      rcases List.mem_append.mp hu with zero | digit
      · exact zeros_all_digits _ u zero
      · exact all u digit
    · rw [digitsValue_append_digits, digitsValue_append_digits, digitsValue_decimal, digitsValue_zeros,
        List.length_append, zeros_length]
      have zero : digitsValue [48] = 0 := rfl
      rw [zero, zero_mul, zero_mul, zero_add, zero_add]
      congr 2
      push_cast
      omega
  split
  · -- one digit and an exponent
    rename_i integer point leading one
    refine ⟨decimal d.digits, _, [], _, (decimal d.digits).length + d.exponent - 1, ?_,
      parseFraction_none ?_, parseExponent_format _ h, ?_⟩
    · rw [List.append_assoc]
      exact parseInteger_append all (by rintro u ⟨⟩; decide) nonempty (.inr one)
    · rw [formatExponent_head]
      decide
    · rw [List.append_nil, digitsValue_decimal, one]
      congr 2
      simp
  · -- the point after the first digit and an exponent
    rename_i integer point leading many
    have after : (decimal d.digits).drop 1 ≠ [] := by
      rw [Ne, List.drop_eq_nil_iff]
      omega
    have before : (decimal d.digits).take 1 ≠ [] := by
      rw [Ne, List.take_eq_nil_iff]
      push Not
      exact ⟨by omega, nonempty⟩
    refine ⟨(decimal d.digits).take 1, _, (decimal d.digits).drop 1, _,
      (decimal d.digits).length + d.exponent - 1, ?_,
      parseFraction_append (split_all 1).2 ?_ after, parseExponent_format _ h, ?_⟩
    · rw [List.append_assoc, List.append_assoc, List.append_assoc]
      refine parseInteger_append (split_all 1).1 (by rintro u ⟨⟩; decide) before (.inr ?_)
      rw [List.length_take]
      omega
    · rw [formatExponent_head]
      rintro u ⟨⟩
      decide
    · rw [List.take_append_drop, digitsValue_decimal, List.length_drop]
      congr 2
      omega

/-- A literal without a sign begins with a digit. -/
theorem parseInteger_head {s : JsString} {r : JsString × JsString} (h : parseInteger s = some r) :
    ∀ u ∈ s.head?, isDigit u = true := by
  intro u hu
  cases s with
  | nil => cases hu
  | cons v s =>
      cases hu
      by_contra other
      simp [parseInteger, other] at h

theorem shortestDecimal_digits {d : Magnitude} (h : d.mantissa ≠ 0) : (shortestDecimal d).digits ≠ 0 := by
  have back := roundMagnitude_shortest d
  intro none
  rw [Decimal.value, none, Nat.cast_zero, zero_mul, roundMagnitude, if_pos rfl, Option.some.injEq] at back
  exact h (back ▸ rfl)

/-- A printed finite number is read back as itself; zero loses its sign. -/
theorem parseNumber_stringifyNumber (negative : Bool) (d : Magnitude) {rest : JsString}
    (h : EndsNumber rest) :
    parseNumber (stringifyNumber (.finite negative d) ++ rest) =
      some (.finite (negative && d.mantissa != 0) d, rest) := by
  by_cases zero : d.mantissa = 0
  · rw [stringifyNumber, if_pos zero, zero, Magnitude.eq_zero_of_mantissa zero]
    have int : parseInteger (js "0" ++ rest) = some (js "0", rest) :=
      parseInteger_append (by decide) h.noDigit (by decide) (.inr rfl)
    have sign : parseSign (js "0" ++ rest) = (false, js "0" ++ rest) :=
      parseSign_digit (by rintro u ⟨⟩; decide)
    rw [parseNumber_parts sign int (parseFraction_none fun dot => ((h 46 dot).2.1 rfl))
      (parseExponent_none h)]
    have value : Decimal.value ⟨digitsValue (js "0" ++ []), 0 - (([] : JsString).length : Int)⟩ = 0 := by
      have digits : digitsValue (js "0" ++ []) = 0 := by decide
      rw [Decimal.value, digits, Nat.cast_zero, zero_mul]
    rw [ofDecimal, value, roundMagnitude, if_pos rfl]
    simp
  · have back := roundMagnitude_shortest d
    have digits := shortestDecimal_digits zero
    obtain ⟨whole, s₂, fraction, s₃, e, int, frac, exp, value⟩ := parts_formatDecimal digits h
    have number : ofDecimal negative ⟨digitsValue (whole ++ fraction), e - fraction.length⟩ =
        .finite negative d := by
      rw [ofDecimal_congr value, ofDecimal, back]
    have nonzero : (d.mantissa != 0) = true := by simpa using zero
    rw [stringifyNumber, if_neg zero, nonzero, Bool.and_true]
    cases negative with
    | true =>
        have sign : parseSign (js "-" ++ formatDecimal (shortestDecimal d) ++ rest) =
            (true, formatDecimal (shortestDecimal d) ++ rest) := rfl
        rw [if_pos rfl, parseNumber_parts sign int frac exp, number]
    | false =>
        have sign := parseSign_digit (parseInteger_head int)
        rw [if_neg Bool.false_ne_true, List.nil_append, parseNumber_parts sign int frac exp, number]

/-! ### Length -/

theorem decimal_length_le_of_lt {n k : Nat} (positive : 0 < k) (h : n < 10 ^ k) : (decimal n).length ≤ k := by
  unfold decimal
  split
  · exact positive
  · rw [List.length_reverse, List.length_map]
    exact (Nat.digits_length_le_iff (by decide) n).mpr h

theorem decimal_length_le_succ (n : Nat) : (decimal n).length ≤ n + 1 :=
  decimal_length_le_of_lt (Nat.succ_pos n) (Nat.lt_of_lt_of_le n.lt_succ_self (Nat.lt_pow_self (by decide)).le)

theorem formatExponent_length_le (e : Int) : (formatExponent e).length ≤ e.natAbs + 3 := by
  have digits := decimal_length_le_succ e.natAbs
  have sign : (if e < 0 then js "-" else js "+").length = 1 := by split <;> rfl
  have letter : (js "e").length = 1 := rfl
  rw [formatExponent, List.length_append, List.length_append]
  omega

theorem formatDecimal_length_le {d : Decimal} {size : Nat} (digits : (decimal d.digits).length ≤ size)
    (exponent : d.exponent.natAbs ≤ size) : (formatDecimal d).length ≤ 4 * size + 30 := by
  have point : (js ".").length = 1 := rfl
  have lead : (js "0.").length = 2 := rfl
  have zero : (js "0").length = 1 := rfl
  have e := formatExponent_length_le ((decimal d.digits).length + d.exponent - 1)
  unfold formatDecimal
  dsimp only
  split_ifs
  · omega
  · rw [List.length_append, zeros_length]
    omega
  · simp only [List.length_append, List.length_take, List.length_drop]
    omega
  · simp only [List.length_append, zeros_length]
    omega
  · rw [List.length_append]
    omega
  · simp only [List.length_append, List.length_take, List.length_drop]
    omega

/-- The decimals that are tried have `k` digits, and the exponent that fits them. -/
theorem closestDecimal_bounds {d : Magnitude} {k : Nat} {b : Decimal} (positive : 0 < k)
    (h : closestDecimal d k = some b) :
    b.digits < 10 ^ k ∧
      (b.exponent = Int.log 10 d.value + 1 - k ∨ b.exponent = Int.log 10 d.value + 1) := by
  have tried {a : Decimal} (back : readsBack d a = some b) : a = b := by
    unfold readsBack at back
    split at back
    · exact Option.some.inj back
    · cases back
  have small : ⌊d.value / 10 ^ (Int.log 10 d.value + 1 - k)⌋₊ < 10 ^ k := by
    have ten : (0 : ℚ) < 10 ^ (Int.log 10 d.value + 1 - k) := by positivity
    refine (Nat.floor_lt (div_nonneg d.value_nonneg ten.le)).mpr ?_
    rw [div_lt_iff₀ ten, Nat.cast_pow, Nat.cast_ofNat, ← zpow_natCast, ← zpow_add₀ (by norm_num)]
    have upper := Int.lt_zpow_succ_log_self (by decide : 1 < 10) d.value
    rwa [Nat.cast_ofNat, ← sub_add_cancel (Int.log 10 d.value + 1) (k : ℤ), add_comm] at upper
  have low (back : readsBack d ⟨⌊d.value / 10 ^ (Int.log 10 d.value + 1 - k)⌋₊,
      Int.log 10 d.value + 1 - k⟩ = some b) : b.digits < 10 ^ k ∧
      (b.exponent = Int.log 10 d.value + 1 - k ∨ b.exponent = Int.log 10 d.value + 1) := by
    rw [← tried back]
    exact ⟨small, .inl rfl⟩
  have high (back : readsBack d (if ⌊d.value / 10 ^ (Int.log 10 d.value + 1 - k)⌋₊ + 1 = 10 ^ k then
        ⟨1, Int.log 10 d.value + 1⟩
      else ⟨⌊d.value / 10 ^ (Int.log 10 d.value + 1 - k)⌋₊ + 1, Int.log 10 d.value + 1 - k⟩) = some b) :
      b.digits < 10 ^ k ∧
        (b.exponent = Int.log 10 d.value + 1 - k ∨ b.exponent = Int.log 10 d.value + 1) := by
    rw [← tried back]
    split
    · exact ⟨Nat.one_lt_pow positive.ne' (by decide), .inr rfl⟩
    · rename_i inside
      exact ⟨lt_of_le_of_ne small inside, .inl rfl⟩
  unfold closestDecimal at h
  dsimp only at h
  split at h
  · exact (Option.or_eq_some_iff.mp h).elim low fun rest => high rest.2
  split at h
  · exact (Option.or_eq_some_iff.mp h).elim high fun rest => low rest.2
  split at h
  · exact (Option.or_eq_some_iff.mp h).elim low fun rest => high rest.2
  · exact (Option.or_eq_some_iff.mp h).elim high fun rest => low rest.2

theorem searchDecimal_bounds {d : Magnitude} {fuel k : Nat} {b : Decimal} (positive : 0 < k)
    (h : searchDecimal d fuel k = some b) :
    ∃ j, 0 < j ∧ j < k + fuel ∧ b.digits < 10 ^ j ∧
      (b.exponent = Int.log 10 d.value + 1 - j ∨ b.exponent = Int.log 10 d.value + 1) := by
  induction fuel generalizing k with
  | zero => cases h
  | succ fuel ih =>
      rcases Option.or_eq_some_iff.mp h with here | ⟨-, later⟩
      · exact ⟨k, positive, by omega, closestDecimal_bounds positive here⟩
      · obtain ⟨j, pos, bound, rest⟩ := ih k.succ_pos later
        exact ⟨j, pos, by omega, rest⟩

theorem exactDecimal_bounds (d : Magnitude) :
    (exactDecimal d).digits < 10 ^ 800 ∧ (exactDecimal d).exponent.natAbs ≤ 1074 := by
  obtain ⟨small, least, most, -⟩ := d.normal
  unfold exactDecimal
  split
  · refine ⟨?_, Nat.zero_le _⟩
    have power : 2 ^ d.exponent.toNat ≤ 2 ^ 971 := Nat.pow_le_pow_right (by decide) (by omega)
    calc d.mantissa * 2 ^ d.exponent.toNat ≤ 2 ^ 53 * 2 ^ 971 := Nat.mul_le_mul small.le power
      _ < 10 ^ 800 := by decide +kernel
  · refine ⟨?_, by dsimp only; omega⟩
    have power : 5 ^ (-d.exponent).toNat ≤ 5 ^ 1074 := Nat.pow_le_pow_right (by decide) (by omega)
    calc d.mantissa * 5 ^ (-d.exponent).toNat ≤ 2 ^ 53 * 5 ^ 1074 := Nat.mul_le_mul small.le power
      _ < 10 ^ 800 := by decide +kernel

/-- An integer has a short text. -/
theorem stringifyNumber_ofNat_length_le {n : Nat} (h : n < 2 ^ 53) :
    (stringifyNumber (ofNat n)).length ≤ 4800 := by
  obtain ⟨d, value, finite⟩ := ofNat_eq h
  rw [finite, stringifyNumber]
  split
  · decide
  rename_i nonzero
  have exact := exactDecimal_bounds d
  have size := decimal_length_le_of_lt (by decide) exact.1
  have log : 0 ≤ Int.log 10 d.value ∧ Int.log 10 d.value < 16 := by
    have one : 1 ≤ n := by
      by_contra zero
      have vanishes : d.value = 0 := by rw [value, Nat.lt_one_iff.mp (not_le.mp zero), Nat.cast_zero]
      have pos : (0 : ℚ) < d.mantissa := by exact_mod_cast Nat.pos_of_ne_zero nonzero
      have : (0 : ℚ) < d.value := by unfold Magnitude.value; positivity
      exact this.ne' vanishes
    rw [value, Int.log_natCast]
    refine ⟨Int.natCast_nonneg _, ?_⟩
    have : Nat.log 10 n < 16 := Nat.log_lt_of_lt_pow (by omega) (h.trans (by decide))
    exact_mod_cast this
  have short : (formatDecimal (shortestDecimal d)).length ≤ 4 * 1100 + 30 := by
    unfold shortestDecimal
    cases found : searchDecimal d (decimal (exactDecimal d).digits).length 1 with
    | none => exact formatDecimal_length_le (size.trans (by decide)) (exact.2.trans (by decide))
    | some b =>
        obtain ⟨j, pos, bound, digits, exponent⟩ := searchDecimal_bounds (by decide) found
        rw [Option.getD_some]
        exact formatDecimal_length_le ((decimal_length_le_of_lt pos digits).trans (by omega)) (by omega)
  have empty : (if false = true then js "-" else []).length = 0 := rfl
  rw [List.length_append, empty]
  omega

end PortableCodex.Js
