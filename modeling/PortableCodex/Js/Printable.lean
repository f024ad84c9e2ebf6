import PortableCodex.Js.JsonParse

/-!
A JSON text has no control characters, and neither have its bytes.

`JSON.stringify` escapes every control character of a string (`printable_stringify`), so a byte
below a space cannot occur in what is written of a value (`printable_encodeUtf8`). A reader may
look for such a byte to find what is no JSON text.
-/

namespace PortableCodex.Js

/-- A text without control characters. -/
def Printable (s : JsString) : Prop := ∀ u ∈ s, 0x20 ≤ u.toNat

instance (s : JsString) : Decidable (Printable s) := by
  unfold Printable; infer_instance

theorem printable_nil : Printable [] := by
  rintro u ⟨⟩

theorem printable_append {a b : JsString} (first : Printable a) (second : Printable b) : Printable (a ++ b) := by
  intro u member
  rcases List.mem_append.mp member with left | right
  · exact first u left
  · exact second u right

theorem printable_cons {u : UInt16} {s : JsString} (first : 0x20 ≤ u.toNat) (rest : Printable s) :
    Printable (u :: s) :=
  List.forall_mem_cons.mpr ⟨first, rest⟩

theorem printable_take {s : JsString} (h : Printable s) (n : Nat) : Printable (s.take n) :=
  fun u member => h u (List.mem_of_mem_take member)

theorem printable_drop {s : JsString} (h : Printable s) (n : Nat) : Printable (s.drop n) :=
  fun u member => h u (List.mem_of_mem_drop member)

/-! ### Numbers -/

theorem printable_decimal (n : Nat) : Printable (decimal n) := by
  intro u member
  have digit := decimal_all_digits n u member
  simp only [isDigit, decide_eq_true_eq] at digit
  omega

theorem printable_zeros (n : Nat) : Printable (zeros n) := by
  intro u member
  rw [List.eq_of_mem_replicate member]
  decide

theorem printable_formatExponent (e : Int) : Printable (formatExponent e) := by
  unfold formatExponent
  apply printable_append
  · apply printable_append
    · decide
    · split <;> decide
  · exact printable_decimal _

theorem printable_formatDecimal (d : Decimal) : Printable (formatDecimal d) := by
  have digits := printable_decimal d.digits
  have point : Printable (js ".") := by decide
  unfold formatDecimal
  dsimp only
  split
  · decide
  split
  · exact printable_append digits (printable_zeros _)
  split
  · exact printable_append (printable_append (printable_take digits _) point) (printable_drop digits _)
  split
  · have lead : Printable (js "0.") := by decide
    exact printable_append (printable_append lead (printable_zeros _)) digits
  split
  · exact printable_append digits (printable_formatExponent _)
  · apply printable_append
    · exact printable_append (printable_append (printable_take digits _) point) (printable_drop digits _)
    · exact printable_formatExponent _

theorem printable_stringifyNumber (n : JsNumber) : Printable (stringifyNumber n) := by
  cases n with
  | nan => decide
  | infinity negative => exact (by decide : Printable (js "null"))
  | finite negative d =>
    rw [stringifyNumber]
    split
    · decide
    · apply printable_append
      · split
        · decide
        · exact printable_nil
      · exact printable_formatDecimal _

/-! ### Strings -/

theorem printable_hexUnit {d : Nat} (h : d < 16) : 0x20 ≤ (hexUnit d).toNat := by
  interval_cases d <;> decide

theorem printable_unicodeEscape (u : UInt16) : Printable (unicodeEscape u) := by
  have bound := u.toNat_lt
  apply printable_append
  · decide
  · intro v member
    simp only [List.mem_cons, List.not_mem_nil, or_false] at member
    rcases member with rfl | rfl | rfl | rfl <;> exact printable_hexUnit (by omega)

theorem printable_quoteUnit (u : UInt16) : Printable (quoteUnit u) := by
  unfold quoteUnit
  split
  · decide
  split
  · decide
  split
  · decide
  split
  · decide
  split
  · decide
  split
  · decide
  split
  · decide
  split
  · exact printable_unicodeEscape u
  · rename_i plain
    simp only [Bool.or_eq_true, not_or, decide_eq_true_eq, UInt16.lt_iff_toNat_lt] at plain
    exact printable_cons (Nat.le_of_not_lt plain.1.1) printable_nil

theorem printable_quoteUnits (s : JsString) : Printable (quoteUnits s) := by
  induction s using quoteUnits.induct with
  | case1 => exact printable_nil
  | case2 u => exact printable_quoteUnit u
  | case3 u v rest pair ih =>
    rw [quoteUnits, if_pos pair]
    simp only [Bool.and_eq_true, isHighSurrogate, isLowSurrogate, decide_eq_true_eq] at pair
    apply printable_cons
    · omega
    · exact printable_cons (by omega) ih
  | case4 u v rest single ih =>
    rw [quoteUnits, if_neg single]
    exact printable_append (printable_quoteUnit u) ih

/-- A text between two brackets. -/
theorem printable_bracket {s : JsString} (h : Printable s) {u v : UInt16} (first : 0x20 ≤ u.toNat)
    (last : 0x20 ≤ v.toNat) : Printable (u :: (s ++ [v])) :=
  printable_cons first (printable_append h (printable_cons last printable_nil))

theorem printable_quote (s : JsString) : Printable (quote s) :=
  printable_bracket (printable_quoteUnits s) (by decide) (by decide)

/-! ### Values -/

theorem printable_joinComma {items : List JsString} (h : ∀ item ∈ items, Printable item) :
    Printable (joinComma items) := by
  induction items with
  | nil => exact printable_nil
  | cons item items ih =>
    obtain ⟨first, rest⟩ := List.forall_mem_cons.mp h
    cases items with
    | nil => exact first
    | cons next items =>
      rw [joinComma_cons _ (List.cons_ne_nil _ _)]
      exact printable_append first (printable_cons (by decide) (ih rest))

mutual

/-- A printed text has no control character, whatever the strings in the value. -/
theorem printable_stringify : ∀ v : JsValue, Printable (stringify v)
  | .null => by decide
  | .bool true => by decide
  | .bool false => by decide
  | .number n => printable_stringifyNumber n
  | .string s => printable_quote s
  | .array items =>
      printable_bracket (printable_joinComma (printable_stringifyItems items)) (by decide) (by decide)
  | .object members =>
      printable_bracket (printable_joinComma (printable_stringifyMembers members)) (by decide) (by decide)

theorem printable_stringifyItems : ∀ vs : List JsValue, ∀ item ∈ stringifyItems vs, Printable item
  | [] => by rintro _ ⟨⟩
  | v :: vs => List.forall_mem_cons.mpr ⟨printable_stringify v, printable_stringifyItems vs⟩

theorem printable_stringifyMembers : ∀ ms : List (JsString × JsValue),
    ∀ item ∈ stringifyMembers ms, Printable item
  | [] => by rintro _ ⟨⟩
  | (key, v) :: ms =>
      List.forall_mem_cons.mpr ⟨printable_append (printable_quote key)
        (printable_cons (by decide) (printable_stringify v)), printable_stringifyMembers ms⟩

end

/-! ### Bytes -/

theorem encodeUnit_ge {u : UInt16} (h : 0x20 ≤ u.toNat) : ∀ b ∈ encodeUnit u, 0x20 ≤ b.toNat := by
  intro b member
  have bound := u.toNat_lt
  unfold encodeUnit at member
  split at member
  · obtain rfl := List.mem_singleton.mp member
    rwa [byte_toNat (by omega)]
  split at member
  · rcases List.mem_pair.mp member with rfl | rfl <;> rw [byte_toNat (by omega)] <;> omega
  split at member
  · simp only [List.mem_cons, List.not_mem_nil, or_false] at member
    rcases member with rfl | rfl | rfl <;> decide
  · simp only [List.mem_cons, List.not_mem_nil, or_false] at member
    rcases member with rfl | rfl | rfl <;> rw [byte_toNat (by omega)] <;> omega

theorem encodePair_ge {u v : UInt16} (high : isHighSurrogate u = true) (low : isLowSurrogate v = true) :
    ∀ b ∈ encodePair u v, 0x20 ≤ b.toNat := by
  intro b member
  simp only [isHighSurrogate, isLowSurrogate, decide_eq_true_eq] at high low
  have range : pairCodePoint u v < 0x110000 := by
    unfold pairCodePoint
    omega
  simp only [encodePair, List.mem_cons, List.not_mem_nil, or_false] at member
  rcases member with rfl | rfl | rfl | rfl <;> rw [byte_toNat (by omega)] <;> omega

/-- The bytes of a text without control characters are none either. -/
theorem printable_encodeUtf8 {s : JsString} (h : Printable s) : ∀ b ∈ encodeUtf8 s, 0x20 ≤ b.toNat := by
  induction s using encodeUtf8.induct with
  | case1 => rintro b ⟨⟩
  | case2 u => exact encodeUnit_ge (h u List.mem_cons_self)
  | case3 u v rest pair ih =>
    obtain ⟨high, low⟩ := Bool.and_eq_true_iff.mp pair
    rw [encodeUtf8, if_pos pair]
    intro b member
    rcases List.mem_append.mp member with here | later
    · exact encodePair_ge high low b here
    · exact ih (fun w inside => h w (List.mem_cons_of_mem _ (List.mem_cons_of_mem _ inside))) b later
  | case4 u v rest single ih =>
    rw [encodeUtf8, if_neg single]
    intro b member
    rcases List.mem_append.mp member with here | later
    · exact encodeUnit_ge (h u List.mem_cons_self) b here
    · exact ih (fun w inside => h w (List.mem_cons_of_mem _ inside)) b later

end PortableCodex.Js
