import PortableCodex.Js.Json

/-!
The round trip of JSON texts: `parseJson (stringify v) = some (settle v)`.

Each parser is shown to read a printed value off the front of any text that cannot continue a
number, so the lemmas compose along the structure of the value.
-/

namespace PortableCodex.Js

/-! ### Strings -/

theorem hexValue?_hexUnit {n : Nat} (h : n < 16) : hexValue? (hexUnit n) = some n := by
  interval_cases n <;> decide

theorem hexEscape?_units (u : UInt16) :
    hexEscape? (hexUnit (u.toNat / 0x1000)) (hexUnit (u.toNat / 0x100 % 16))
      (hexUnit (u.toNat / 0x10 % 16)) (hexUnit (u.toNat % 16)) = some u := by
  have bound := u.toNat_lt
  have digits : u.toNat / 0x1000 * 0x1000 + u.toNat / 0x100 % 16 * 0x100 + u.toNat / 0x10 % 16 * 0x10 +
      u.toNat % 16 = u.toNat := by omega
  unfold hexEscape?
  rw [hexValue?_hexUnit (by omega), hexValue?_hexUnit (by omega),
    hexValue?_hexUnit (by omega), hexValue?_hexUnit (by omega)]
  simp only [Option.bind_eq_bind, Option.bind_some, digits, UInt16.ofNat_toNat]

theorem parseString_plain {u : UInt16} (printable : 32 ≤ u.toNat) (notQuote : u ≠ 34)
    (notEscape : u ≠ 92) (rest : JsString) :
    parseString (u :: rest) = (parseString rest).map fun r => (u :: r.1, r.2) := by
  have notControl : ¬ (u < 32 ∨ u = 92) := by
    rintro (control | escape)
    · have : u.toNat < 32 := UInt16.lt_iff_toNat_lt.mp control
      omega
    · exact notEscape escape
  rw [parseString]
  · simp only [notControl, if_false]
    cases parseString rest <;> rfl
  · exact fun e => notQuote e
  · exact fun _ _ _ _ _ e => absurd e notEscape
  · exact fun _ _ e => absurd e notEscape

theorem parseString_unicodeEscape (u : UInt16) (rest : JsString) :
    parseString (unicodeEscape u ++ rest) = (parseString rest).map fun r => (u :: r.1, r.2) := by
  show parseString (92 :: 117 :: _ :: _ :: _ :: _ :: rest) = _
  rw [parseString, hexEscape?_units]
  cases parseString rest <;> rfl

theorem parseString_quoteUnit (u : UInt16) (rest : JsString) :
    parseString (quoteUnit u ++ rest) = (parseString rest).map fun r => (u :: r.1, r.2) := by
  have simple (e : UInt16) (other : e ≠ 117) (escape : simpleEscape? e = some u) :
      parseString (92 :: e :: rest) = (parseString rest).map fun r => (u :: r.1, r.2) := by
    rw [parseString]
    · rw [escape]
      cases parseString rest <;> rfl
    · exact fun _ _ _ _ _ e => absurd e other
  unfold quoteUnit
  split
  · subst u; exact simple 98 (by decide) (by decide)
  split
  · subst u; exact simple 116 (by decide) (by decide)
  split
  · subst u; exact simple 110 (by decide) (by decide)
  split
  · subst u; exact simple 102 (by decide) (by decide)
  split
  · subst u; exact simple 114 (by decide) (by decide)
  split
  · subst u; exact simple 34 (by decide) (by decide)
  split
  · subst u; exact simple 92 (by decide) (by decide)
  split
  · exact parseString_unicodeEscape u rest
  · rename_i notQuote notEscape plain
    refine parseString_plain ?_ notQuote notEscape rest
    by_contra control
    refine plain ?_
    have : u < 32 := UInt16.lt_iff_toNat_lt.mpr (by simpa using control)
    simp [this]

theorem parseString_quoteUnits (s rest : JsString) :
    parseString (quoteUnits s ++ 34 :: rest) = some (s, rest) := by
  induction s using quoteUnits.induct with
  | case1 => rfl
  | case2 u =>
      rw [quoteUnits, parseString_quoteUnit]
      rfl
  | case3 u v units pair ih =>
      obtain ⟨high, low⟩ := Bool.and_eq_true_iff.mp pair
      simp only [isHighSurrogate, isLowSurrogate, decide_eq_true_eq] at high low
      have plain (w : UInt16) (large : 0xD800 ≤ w.toNat) : w ≠ 34 ∧ w ≠ 92 := by
        constructor <;> (rintro rfl; revert large; decide)
      rw [quoteUnits, if_pos pair, List.cons_append, List.cons_append,
        parseString_plain (by omega) (plain u high.1).1 (plain u high.1).2,
        parseString_plain (by omega) (plain v (by omega)).1 (plain v (by omega)).2, ih]
      rfl
  | case4 u v units single ih =>
      rw [quoteUnits, if_neg single, List.append_assoc, parseString_quoteUnit, ih]
      rfl

/-! ### Values -/

/-- What can follow a value inside a text, or nothing. -/
def EndsValue (s : JsString) : Prop := ∀ u ∈ s.head?, u = 44 ∨ u = 93 ∨ u = 125

theorem EndsValue.number {s : JsString} (h : EndsValue s) : EndsNumber s := by
  intro u hu
  rcases h u hu with rfl | rfl | rfl <;> decide

mutual

/-- The number of calls that parsing a value takes at most. -/
def weight : JsValue → Nat
  | .array items => 1 + weightItems items
  | .object members => 1 + weightMembers members
  | _ => 1

def weightItems : List JsValue → Nat
  | [] => 0
  | v :: vs => 1 + weight v + weightItems vs

def weightMembers : List (JsString × JsValue) → Nat
  | [] => 0
  | (_, v) :: ms => 1 + weight v + weightMembers ms

end

theorem skipSpace_of_head {u : UInt16} (h : isSpace u = false) (s : JsString) :
    skipSpace (u :: s) = u :: s := by
  simp [skipSpace, h]

/-- The first unit of a printed finite number. -/
theorem stringifyNumber_head (negative : Bool) (d : Magnitude) :
    ∃ u s, stringifyNumber (.finite negative d) = u :: s ∧ (isDigit u = true ∨ u = 45) := by
  by_cases zero : d.mantissa = 0
  · exact ⟨48, [], by rw [stringifyNumber, if_pos zero]; rfl, .inl rfl⟩
  · have digits := shortestDecimal_digits zero
    have ends : EndsNumber [] := by rintro u ⟨⟩
    obtain ⟨whole, s₂, -, -, -, int, -⟩ := parts_formatDecimal digits ends
    rw [List.append_nil] at int
    rw [stringifyNumber, if_neg zero]
    cases negative with
    | true => exact ⟨45, _, rfl, .inr rfl⟩
    | false =>
        cases text : formatDecimal (shortestDecimal d) with
        | nil => rw [text] at int; simp [parseInteger] at int
        | cons u s => exact ⟨u, s, rfl, .inl (parseInteger_head int u (by rw [text]; rfl))⟩

theorem stringify_head (v : JsValue) :
    ∃ u s, stringify v = u :: s ∧ isSpace u = false ∧ u ≠ 93 ∧ u ≠ 125 := by
  cases v with
  | null => exact ⟨110, _, rfl, by decide⟩
  | bool b => cases b with
      | true => exact ⟨116, _, rfl, by decide⟩
      | false => exact ⟨102, _, rfl, by decide⟩
  | number n => cases n with
      | nan => exact ⟨110, _, rfl, by decide⟩
      | infinity _ => exact ⟨110, _, rfl, by decide⟩
      | finite negative d =>
          obtain ⟨u, s, text, digit⟩ := stringifyNumber_head negative d
          refine ⟨u, s, by rw [stringify, text], ?_⟩
          rcases digit with digit | rfl
          · refine ⟨?_, ?_, ?_⟩
            · by_contra space
              simp only [isSpace, Bool.or_eq_true, decide_eq_true_eq, Bool.not_eq_false] at space
              rcases space with ((rfl | rfl) | rfl) | rfl <;> revert digit <;> decide
            · rintro rfl; revert digit; decide
            · rintro rfl; revert digit; decide
          · decide
  | string s => exact ⟨34, _, rfl, by decide⟩
  | array items => exact ⟨91, _, rfl, by decide⟩
  | object members => exact ⟨123, _, rfl, by decide⟩

theorem parseKeyword_append (keyword rest : JsString) (value : JsValue) :
    parseKeyword keyword (keyword ++ rest) value = some (value, rest) := by
  simp [parseKeyword]

theorem parseValue_number (negative : Bool) (d : Magnitude) (fuel : Nat) {rest : JsString}
    (h : EndsValue rest) :
    parseValue (fuel + 1) (stringifyNumber (.finite negative d) ++ rest) =
      some (settleNumber (.finite negative d), rest) := by
  have number := parseNumber_stringifyNumber negative d h.number
  obtain ⟨u, s, text, digit⟩ := stringifyNumber_head negative d
  rw [text, List.cons_append] at number ⊢
  have other (k : UInt16) (notDigit : isDigit k = false) (notMinus : k ≠ 45) : u ≠ k := by
    rintro rfl
    rcases digit with digit | minus
    · rw [notDigit] at digit; cases digit
    · exact notMinus minus
  have space : isSpace u = false := by
    simp only [isSpace, other 32 (by decide) (by decide), other 9 (by decide) (by decide),
      other 10 (by decide) (by decide), other 13 (by decide) (by decide), decide_false, Bool.or_self]
  rw [parseValue, skipSpace_of_head space]
  simp only [other 34 (by decide) (by decide), other 91 (by decide) (by decide),
    other 123 (by decide) (by decide), other 116 (by decide) (by decide),
    other 102 (by decide) (by decide), other 110 (by decide) (by decide), if_false, number,
    Option.map_some, settleNumber]

theorem joinComma_cons (item : JsString) {items : List JsString} (h : items ≠ []) :
    joinComma (item :: items) = item ++ 44 :: joinComma items := by
  cases items with
  | nil => exact absurd rfl h
  | cons _ _ => rfl

/-- The items of an array begin as their first item does. -/
theorem stringifyItems_head (v : JsValue) (vs : List JsValue) :
    ∃ u s, joinComma (stringifyItems (v :: vs)) = u :: s ∧ isSpace u = false ∧ u ≠ 93 := by
  obtain ⟨u, s, text, space, bracket, -⟩ := stringify_head v
  cases vs with
  | nil => exact ⟨u, s, text, space, bracket⟩
  | cons w vs =>
      refine ⟨u, s ++ 44 :: joinComma (stringifyItems (w :: vs)), ?_, space, bracket⟩
      rw [stringifyItems, text]
      rfl

theorem stringifyMembers_head (m : JsString × JsValue) (ms : List (JsString × JsValue)) :
    ∃ s, joinComma (stringifyMembers (m :: ms)) = 34 :: s := by
  cases ms with
  | nil => exact ⟨_, rfl⟩
  | cons n ms => exact ⟨_, rfl⟩

theorem parseValue_array {u : UInt16} {s : JsString} (fuel : Nat) (space : isSpace u = false)
    (bracket : u ≠ 93) :
    parseValue (fuel + 1) (91 :: u :: s) =
      (parseItems fuel (u :: s)).map fun r => (JsValue.array r.1, r.2) := by
  have open_bracket : skipSpace (91 :: u :: s) = 91 :: u :: s := skipSpace_of_head (by decide) _
  rw [parseValue, open_bracket]
  dsimp only
  rw [if_neg (by decide), if_pos rfl, skipSpace_of_head space]
  split
  · rename_i heq
    exact absurd (List.cons.inj heq).1 bracket
  · rfl

theorem parseMembers_last {key : JsString} {w : JsValue} {fuel : Nat} {s rest : JsString}
    (value : parseValue fuel s = some (w, 125 :: rest)) :
    parseMembers (fuel + 1) (quote key ++ 58 :: s) = some ([(key, w)], rest) := by
  have text : quote key ++ 58 :: s = 34 :: (quoteUnits key ++ 34 :: (58 :: s)) := by
    simp [quote]
  rw [text, parseMembers]
  show (parseString (quoteUnits key ++ 34 :: (58 :: s))).bind _ = _
  rw [parseString_quoteUnits]
  show (parseValue fuel s).bind _ = _
  rw [value]
  rfl

theorem parseMembers_next {key : JsString} {w : JsValue} {fuel : Nat} {s rest : JsString}
    (value : parseValue fuel s = some (w, 44 :: rest)) :
    parseMembers (fuel + 1) (quote key ++ 58 :: s) =
      (parseMembers fuel rest).bind fun r => some ((key, w) :: r.1, r.2) := by
  have text : quote key ++ 58 :: s = 34 :: (quoteUnits key ++ 34 :: (58 :: s)) := by
    simp [quote]
  rw [text, parseMembers]
  show (parseString (quoteUnits key ++ 34 :: (58 :: s))).bind _ = _
  rw [parseString_quoteUnits]
  show (parseValue fuel s).bind _ = _
  rw [value]
  rfl

mutual

theorem parseValue_stringify : ∀ (v : JsValue) (fuel : Nat) (rest : JsString), weight v ≤ fuel →
    EndsValue rest → parseValue fuel (stringify v ++ rest) = some (settle v, rest)
  | v, 0, _, enough, _ => by cases v <;> simp [weight] at enough
  | .null, fuel + 1, rest, _, _ => parseKeyword_append (js "null") rest .null
  | .bool true, fuel + 1, rest, _, _ => parseKeyword_append (js "true") rest (.bool true)
  | .bool false, fuel + 1, rest, _, _ => parseKeyword_append (js "false") rest (.bool false)
  | .number .nan, fuel + 1, rest, _, _ => parseKeyword_append (js "null") rest .null
  | .number (.infinity _), fuel + 1, rest, _, _ => parseKeyword_append (js "null") rest .null
  | .number (.finite negative d), fuel + 1, rest, _, ends => parseValue_number negative d fuel ends
  | .string s, fuel + 1, rest, _, _ => by
      show (parseString (quoteUnits s ++ [34] ++ rest)).map _ = _
      rw [List.append_assoc]
      exact congrArg _ (parseString_quoteUnits s rest)
  | .array [], fuel + 1, rest, _, _ => rfl
  | .array (v :: vs), fuel + 1, rest, enough, _ => by
      have items := parseItems_stringify (v :: vs) fuel rest (List.cons_ne_nil _ _)
        (by simp only [weight] at enough; omega)
      obtain ⟨u, s, text, space, bracket⟩ := stringifyItems_head v vs
      rw [stringify, List.cons_append, List.append_assoc, List.singleton_append]
      rw [text, List.cons_append] at items ⊢
      rw [parseValue_array fuel space bracket, items]
      rfl
  | .object [], fuel + 1, rest, _, _ => rfl
  | .object (m :: ms), fuel + 1, rest, enough, _ => by
      have members := parseMembers_stringify (m :: ms) fuel rest (List.cons_ne_nil _ _)
        (by simp only [weight] at enough; omega)
      obtain ⟨s, text⟩ := stringifyMembers_head m ms
      rw [stringify, List.cons_append, List.append_assoc, List.singleton_append]
      rw [text, List.cons_append] at members ⊢
      show (parseMembers fuel (34 :: (s ++ 125 :: rest))).map _ = _
      rw [members]
      rfl

theorem parseItems_stringify : ∀ (vs : List JsValue) (fuel : Nat) (rest : JsString), vs ≠ [] →
    weightItems vs ≤ fuel →
    parseItems fuel (joinComma (stringifyItems vs) ++ 93 :: rest) = some (settleItems vs, rest)
  | [], _, _, nonempty, _ => absurd rfl nonempty
  | [v], 0, _, _, enough => by simp [weightItems] at enough
  | _ :: _ :: _, 0, _, _, enough => by simp [weightItems] at enough
  | [v], fuel + 1, rest, _, enough => by
      have value := parseValue_stringify v fuel (93 :: rest)
        (by simp only [weightItems] at enough; omega) (by rintro u ⟨⟩; decide)
      show parseItems (fuel + 1) (stringify v ++ 93 :: rest) = _
      rw [parseItems, value]
      rfl
  | v :: w :: vs, fuel + 1, rest, _, enough => by
      have value := parseValue_stringify v fuel
        (44 :: (joinComma (stringifyItems (w :: vs)) ++ 93 :: rest))
        (by simp only [weightItems] at enough; omega) (by rintro u ⟨⟩; decide)
      have items := parseItems_stringify (w :: vs) fuel rest (List.cons_ne_nil _ _)
        (by simp only [weightItems] at enough ⊢; omega)
      have text : joinComma (stringifyItems (v :: w :: vs)) ++ 93 :: rest =
          stringify v ++ 44 :: (joinComma (stringifyItems (w :: vs)) ++ 93 :: rest) := by
        rw [stringifyItems, joinComma_cons _ (by simp [stringifyItems]), List.append_assoc,
          List.cons_append]
      rw [text, parseItems, value]
      show (do
        let (vs, rest) ← parseItems fuel (joinComma (stringifyItems (w :: vs)) ++ 93 :: rest)
        _) = _
      rw [items]
      rfl

theorem parseMembers_stringify : ∀ (ms : List (JsString × JsValue)) (fuel : Nat) (rest : JsString),
    ms ≠ [] → weightMembers ms ≤ fuel →
    parseMembers fuel (joinComma (stringifyMembers ms) ++ 125 :: rest) = some (settleMembers ms, rest)
  | [], _, _, nonempty, _ => absurd rfl nonempty
  | [(_, _)], 0, _, _, enough => by simp [weightMembers] at enough
  | (_, _) :: _ :: _, 0, _, _, enough => by simp [weightMembers] at enough
  | [(key, v)], fuel + 1, rest, _, enough => by
      have value := parseValue_stringify v fuel (125 :: rest)
        (by simp only [weightMembers] at enough; omega) (by rintro u ⟨⟩; decide)
      have text : joinComma (stringifyMembers [(key, v)]) ++ 125 :: rest =
          quote key ++ 58 :: (stringify v ++ 125 :: rest) := by
        simp [stringifyMembers, joinComma]
      rw [text, parseMembers_last value]
      rfl
  | (key, v) :: m :: ms, fuel + 1, rest, _, enough => by
      have value := parseValue_stringify v fuel
        (44 :: (joinComma (stringifyMembers (m :: ms)) ++ 125 :: rest))
        (by simp only [weightMembers] at enough; omega) (by rintro u ⟨⟩; decide)
      have members := parseMembers_stringify (m :: ms) fuel rest (List.cons_ne_nil _ _)
        (by simp only [weightMembers] at enough ⊢; omega)
      have text : joinComma (stringifyMembers ((key, v) :: m :: ms)) ++ 125 :: rest =
          quote key ++ 58 :: (stringify v ++ 44 :: (joinComma (stringifyMembers (m :: ms)) ++ 125 :: rest)) := by
        rw [stringifyMembers, joinComma_cons _ (by simp [stringifyMembers])]
        simp only [List.append_assoc, List.cons_append]
      rw [text, parseMembers_next value, members]
      rfl

end

mutual

theorem weight_le_length : ∀ v : JsValue, weight v ≤ (stringify v).length
  | .array items => by
      have bound := weightItems_le_length items
      simp only [weight, stringify, List.length_cons, List.length_append, List.length_nil]
      omega
  | .object members => by
      have bound := weightMembers_le_length members
      simp only [weight, stringify, List.length_cons, List.length_append, List.length_nil]
      omega
  | .null => by decide
  | .bool true => by decide
  | .bool false => by decide
  | .string s => by simp only [weight, stringify, quote, List.length_cons]; omega
  | .number n => by
      obtain ⟨u, s, text, -⟩ := stringify_head (.number n)
      rw [text, List.length_cons]
      exact Nat.le_add_left 1 _

theorem weightItems_le_length : ∀ vs : List JsValue,
    weightItems vs ≤ (joinComma (stringifyItems vs)).length + 1
  | [] => by decide
  | [v] => by
      have bound := weight_le_length v
      simp only [weightItems, stringifyItems, joinComma]
      omega
  | v :: w :: vs => by
      have bound := weight_le_length v
      have rest := weightItems_le_length (w :: vs)
      rw [weightItems, stringifyItems, joinComma_cons _ (by simp [stringifyItems]),
        List.length_append, List.length_cons]
      omega

theorem weightMembers_le_length : ∀ ms : List (JsString × JsValue),
    weightMembers ms ≤ (joinComma (stringifyMembers ms)).length + 1
  | [] => by decide
  | [(key, v)] => by
      have bound := weight_le_length v
      simp only [weightMembers, stringifyMembers, joinComma, List.length_append, List.length_cons]
      omega
  | (key, v) :: m :: ms => by
      have bound := weight_le_length v
      have rest := weightMembers_le_length (m :: ms)
      rw [weightMembers, stringifyMembers, joinComma_cons _ (by simp [stringifyMembers])]
      simp only [List.length_append, List.length_cons]
      omega

end

/-- The text of a value parses as the value it denotes. -/
theorem parseJson_stringify (v : JsValue) : parseJson (stringify v) = some (settle v) := by
  have value := parseValue_stringify v ((stringify v).length + 1) []
    (Nat.le_succ_of_le (weight_le_length v)) (by rintro u ⟨⟩)
  rw [List.append_nil] at value
  rw [parseJson, value]
  rfl

/-- An object ends itself, so its text can be followed by a newline. -/
theorem parseJson_object_newline (m : JsString × JsValue) (ms : List (JsString × JsValue)) :
    parseJson (stringify (.object (m :: ms)) ++ [10]) = some (settle (.object (m :: ms))) := by
  have enough : weightMembers (m :: ms) ≤ (stringify (.object (m :: ms)) ++ [10]).length := by
    have bound := weight_le_length (.object (m :: ms))
    rw [List.length_append]
    simp only [weight] at bound
    omega
  have members := parseMembers_stringify (m :: ms) (stringify (.object (m :: ms)) ++ [10]).length [10]
    (List.cons_ne_nil _ _) enough
  obtain ⟨s, text⟩ := stringifyMembers_head m ms
  have value : parseValue ((stringify (.object (m :: ms)) ++ [10]).length + 1)
      (stringify (.object (m :: ms)) ++ [10]) = some (settle (.object (m :: ms)), [10]) := by
    generalize (stringify (.object (m :: ms)) ++ [10]).length = fuel at members
    rw [stringify, List.cons_append, List.append_assoc, List.singleton_append]
    rw [text, List.cons_append] at members ⊢
    show (parseMembers fuel (34 :: (s ++ 125 :: [10]))).map _ = _
    rw [members]
    rfl
  rw [parseJson, value]
  rfl

/-! ### Texts that determine their parts -/

theorem stringify_append_inj {v w : JsValue} {rest rest' : JsString}
    (same : stringify v ++ rest = stringify w ++ rest') (ends : EndsValue rest) (ends' : EndsValue rest') :
    stringify v = stringify w ∧ rest = rest' := by
  have left := parseValue_stringify v (max (weight v) (weight w)) rest (le_max_left _ _) ends
  have right := parseValue_stringify w (max (weight v) (weight w)) rest' (le_max_right _ _) ends'
  rw [same, right] at left
  obtain ⟨-, rfl⟩ := Prod.mk.inj (Option.some.inj left)
  exact ⟨List.append_cancel_right same, rfl⟩

theorem stringifyMembers_zip_inj : ∀ {keys : List JsString} {values values' : List JsValue},
    values.length = keys.length → values'.length = keys.length →
    joinComma (stringifyMembers (keys.zip values)) ++ [125] = joinComma (stringifyMembers (keys.zip values')) ++ [125] →
    values.map stringify = values'.map stringify
  | [], [], [], _, _, _ => rfl
  | [key], [v], [w], _, _, same => by
      have text : stringify v ++ [125] = stringify w ++ [125] := by
        simpa [stringifyMembers, joinComma] using same
      rw [List.map_singleton, List.map_singleton, List.append_cancel_right text]
  | key :: key' :: keys, v :: v' :: vs, w :: w' :: ws, length, length', same => by
      have first : stringify v ++ 44 :: (joinComma (stringifyMembers ((key' :: keys).zip (v' :: vs))) ++ [125]) =
          stringify w ++ 44 :: (joinComma (stringifyMembers ((key' :: keys).zip (w' :: ws))) ++ [125]) := by
        simpa [stringifyMembers, joinComma] using same
      obtain ⟨head, tail⟩ := stringify_append_inj first (by rintro u ⟨⟩; decide) (by rintro u ⟨⟩; decide)
      rw [List.map_cons, head, stringifyMembers_zip_inj (Nat.succ.inj length) (Nat.succ.inj length')
        (List.cons_injective tail), ← List.map_cons]

/-- Objects with the same keys in the same order have the same texts only if their values have. -/
theorem stringify_zip_inj {keys : List JsString} {values values' : List JsValue}
    (length : values.length = keys.length) (length' : values'.length = keys.length)
    (same : stringify (.object (keys.zip values)) = stringify (.object (keys.zip values'))) :
    values.map stringify = values'.map stringify :=
  stringifyMembers_zip_inj length length' (List.cons_injective same)

/-! ### Printed texts are well-formed -/

theorem decimal_ascii (n : Nat) : ∀ u ∈ decimal n, u.toNat < 0x80 := by
  intro u member
  have digit := decimal_all_digits n u member
  simp only [isDigit, decide_eq_true_eq] at digit
  omega

theorem formatExponent_ascii (e : Int) : ∀ u ∈ formatExponent e, u.toNat < 0x80 := by
  intro u member
  simp only [formatExponent, List.mem_append] at member
  rcases member with (letter | sign) | digit
  · exact (by decide : ∀ u ∈ js "e", u.toNat < 0x80) u letter
  · split at sign
    · exact (by decide : ∀ u ∈ js "-", u.toNat < 0x80) u sign
    · exact (by decide : ∀ u ∈ js "+", u.toNat < 0x80) u sign
  · exact decimal_ascii _ u digit

theorem zeros_ascii (n : Nat) : ∀ u ∈ zeros n, u.toNat < 0x80 := by
  intro u member
  rw [List.eq_of_mem_replicate member]
  decide

theorem formatDecimal_ascii (d : Decimal) : ∀ u ∈ formatDecimal d, u.toNat < 0x80 := by
  have digits := decimal_ascii d.digits
  have point : ∀ u ∈ js ".", u.toNat < 0x80 := by decide
  intro u member
  unfold formatDecimal at member
  dsimp only at member
  split at member
  · exact (by decide : ∀ u ∈ js "0", u.toNat < 0x80) u member
  split at member
  · exact (List.mem_append.mp member).elim (digits u) (zeros_ascii _ u)
  split at member
  · simp only [List.mem_append] at member
    rcases member with (before | dot) | after
    · exact digits u (List.mem_of_mem_take before)
    · exact point u dot
    · exact digits u (List.mem_of_mem_drop after)
  split at member
  · simp only [List.mem_append] at member
    rcases member with (lead | zero) | digit
    · exact (by decide : ∀ u ∈ js "0.", u.toNat < 0x80) u lead
    · exact zeros_ascii _ u zero
    · exact digits u digit
  split at member
  · exact (List.mem_append.mp member).elim (digits u) (formatExponent_ascii _ u)
  · simp only [List.mem_append] at member
    rcases member with ((first | dot) | after) | exponent
    · exact digits u (List.mem_of_mem_take first)
    · exact point u dot
    · exact digits u (List.mem_of_mem_drop after)
    · exact formatExponent_ascii _ u exponent

theorem stringifyNumber_ascii (n : JsNumber) : ∀ u ∈ stringifyNumber n, u.toNat < 0x80 := by
  cases n with
  | nan => decide
  | infinity _ => exact (by decide : ∀ u ∈ js "null", u.toNat < 0x80)
  | finite negative d =>
      intro u member
      rw [stringifyNumber] at member
      split at member
      · exact (by decide : ∀ u ∈ js "0", u.toNat < 0x80) u member
      · rcases List.mem_append.mp member with sign | digit
        · split at sign
          · exact (by decide : ∀ u ∈ js "-", u.toNat < 0x80) u sign
          · cases sign
        · exact formatDecimal_ascii _ u digit

theorem wellFormed_of_ascii {s : JsString} (h : ∀ u ∈ s, u.toNat < 0x80) : WellFormed s :=
  wellFormed_of_plain fun u member => Nat.lt_trans (h u member) (by decide)

theorem hexUnit_ascii {d : Nat} (h : d < 16) : (hexUnit d).toNat < 0x80 := by
  interval_cases d <;> decide

theorem wellFormed_quoteUnit (u : UInt16) : WellFormed (quoteUnit u) := by
  unfold quoteUnit
  split
  · exact wellFormed_of_ascii (by decide)
  split
  · exact wellFormed_of_ascii (by decide)
  split
  · exact wellFormed_of_ascii (by decide)
  split
  · exact wellFormed_of_ascii (by decide)
  split
  · exact wellFormed_of_ascii (by decide)
  split
  · exact wellFormed_of_ascii (by decide)
  split
  · exact wellFormed_of_ascii (by decide)
  split
  · have bound := u.toNat_lt
    refine wellFormed_of_ascii fun v member => ?_
    rcases List.mem_append.mp member with escape | digit
    · exact (by decide : ∀ v ∈ js "\\u", v.toNat < 0x80) v escape
    · simp only [List.mem_cons, List.not_mem_nil, or_false] at digit
      rcases digit with rfl | rfl | rfl | rfl <;> exact hexUnit_ascii (by omega)
  · rename_i plain
    simp only [Bool.or_eq_true, not_or, Bool.not_eq_true] at plain
    exact ⟨plain.1.2, plain.2⟩

theorem wellFormed_quoteUnits (s : JsString) : WellFormed (quoteUnits s) := by
  induction s using quoteUnits.induct with
  | case1 => trivial
  | case2 u => exact wellFormed_quoteUnit u
  | case3 u v rest pair ih =>
      rw [quoteUnits, if_pos pair, WellFormed, if_pos pair]
      exact ih
  | case4 u v rest single ih =>
      rw [quoteUnits, if_neg single]
      exact wellFormed_append (wellFormed_quoteUnit u) ih

/-- A text between two ASCII brackets. -/
theorem wellFormed_bracket {s : JsString} (h : WellFormed s) {u v : UInt16} (first : u.toNat < 0x80)
    (last : v.toNat < 0x80) : WellFormed (u :: (s ++ [v])) :=
  wellFormed_append (a := [u]) (wellFormed_of_ascii (by rintro w (_ | ⟨_, ⟨⟩⟩); exact first))
    (wellFormed_append h (wellFormed_of_ascii (by rintro w (_ | ⟨_, ⟨⟩⟩); exact last)))

theorem wellFormed_quote (s : JsString) : WellFormed (quote s) :=
  wellFormed_bracket (wellFormed_quoteUnits s) (by decide) (by decide)

theorem wellFormed_joinComma {items : List JsString} (h : ∀ item ∈ items, WellFormed item) :
    WellFormed (joinComma items) := by
  induction items with
  | nil => trivial
  | cons item items ih =>
      cases items with
      | nil => exact h item List.mem_cons_self
      | cons next items =>
          rw [joinComma_cons _ (List.cons_ne_nil _ _)]
          have comma : WellFormed [44] := wellFormed_of_ascii (by decide)
          exact wellFormed_append (h item List.mem_cons_self) (wellFormed_append comma
            (ih fun item member => h item (List.mem_cons_of_mem _ member)))

mutual

/-- A printed text has no unpaired surrogate, whatever the strings in the value. -/
theorem wellFormed_stringify : ∀ v : JsValue, WellFormed (stringify v)
  | .null => wellFormed_of_ascii (by decide)
  | .bool true => wellFormed_of_ascii (by decide)
  | .bool false => wellFormed_of_ascii (by decide)
  | .number n => wellFormed_of_ascii (stringifyNumber_ascii n)
  | .string s => wellFormed_quote s
  | .array items =>
      wellFormed_bracket (wellFormed_joinComma (wellFormed_stringifyItems items)) (by decide) (by decide)
  | .object members =>
      wellFormed_bracket (wellFormed_joinComma (wellFormed_stringifyMembers members)) (by decide) (by decide)

theorem wellFormed_stringifyItems : ∀ vs : List JsValue, ∀ item ∈ stringifyItems vs, WellFormed item
  | [] => by rintro _ ⟨⟩
  | v :: vs => List.forall_mem_cons.mpr ⟨wellFormed_stringify v, wellFormed_stringifyItems vs⟩

theorem wellFormed_stringifyMembers : ∀ ms : List (JsString × JsValue),
    ∀ item ∈ stringifyMembers ms, WellFormed item
  | [] => by rintro _ ⟨⟩
  | (key, v) :: ms =>
      have colon : WellFormed [58] := wellFormed_of_ascii (by decide)
      List.forall_mem_cons.mpr ⟨wellFormed_append (wellFormed_quote key)
        (wellFormed_append colon (wellFormed_stringify v)), wellFormed_stringifyMembers ms⟩

end

end PortableCodex.Js
