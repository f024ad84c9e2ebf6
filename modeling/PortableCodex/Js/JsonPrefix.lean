import Mathlib.Data.List.TakeWhile
import PortableCodex.Js.JsonParse

/-!
Parsing a longer text: what is read off the front of a text is read off the front of every
continuation of it, unless it is a number that reaches the end of the text.

So a text that starts an object is cut short by no parser: no proper beginning of an object's
text without trailing space is a JSON text (`space_of_parseJson`).
-/

namespace PortableCodex.Js

theorem skipSpace_more {s rest : JsString} {u : UInt16} (h : skipSpace s = u :: rest) (more : JsString) :
    skipSpace (s ++ more) = u :: (rest ++ more) := by
  have notEmpty : s.dropWhile isSpace ≠ [] := by
    rw [skipSpace] at h
    simp [h]
  rw [skipSpace] at h ⊢
  rw [List.dropWhile_append, h]
  simp

theorem parseString_more {s rest text : JsString} (h : parseString s = some (text, rest)) (more : JsString) :
    parseString (s ++ more) = some (text, rest ++ more) := by
  induction s using parseString.induct generalizing text rest with
  | case1 => cases h
  | case2 tail =>
      cases h
      rfl
  | case3 a b c d tail ih =>
      simp only [parseString, Option.bind_eq_bind, Option.bind_eq_some_iff] at h
      obtain ⟨u, escape, ⟨after, rest'⟩, read, same⟩ := h
      cases same
      simp only [List.cons_append, parseString, escape, ih read]
      rfl
  | case4 e tail short ih =>
      rw [parseString] at h
      · simp only [Option.bind_eq_bind, Option.bind_eq_some_iff] at h
        obtain ⟨u, escape, ⟨after, rest'⟩, read, same⟩ := h
        cases same
        have other : e ≠ 117 := by
          rintro rfl
          exact Option.some_ne_none u (escape.symm.trans (by decide))
        rw [List.cons_append, List.cons_append, parseString]
        · simp only [escape, ih read]
          rfl
        · intro a b c d rest'' unicode
          exact absurd unicode other
      · exact short
  | case5 u tail notQuote notUnicode notEscape control =>
      rw [parseString] at h
      · simp [control] at h
      · exact notQuote
      · exact notUnicode
      · exact notEscape
  | case6 u tail notQuote notUnicode notEscape plain ih =>
      have notSlash : u ≠ 92 := fun slash => plain (.inr slash)
      rw [parseString] at h
      · simp only [plain, if_false, Option.bind_eq_bind, Option.bind_eq_some_iff] at h
        obtain ⟨⟨after, rest'⟩, read, same⟩ := h
        cases same
        rw [List.cons_append, parseString]
        · simp only [plain, if_false, ih read]
          rfl
        · exact notQuote
        · exact fun _ _ _ _ _ slash => absurd slash notSlash
        · exact fun _ _ slash => absurd slash notSlash
      · exact notQuote
      · exact notUnicode
      · exact notEscape

theorem parseKeyword_more {keyword s rest : JsString} {value v : JsValue}
    (h : parseKeyword keyword s value = some (v, rest)) (more : JsString) :
    parseKeyword keyword (s ++ more) value = some (v, rest ++ more) := by
  unfold parseKeyword at h ⊢
  split at h
  · rename_i starts
    cases h
    obtain ⟨after, rfl⟩ := List.isPrefixOf_iff_prefix.mp starts
    have longer : keyword.isPrefixOf (keyword ++ after ++ more) = true :=
      List.isPrefixOf_iff_prefix.mpr ⟨after ++ more, by rw [List.append_assoc]⟩
    rw [if_pos longer, List.append_assoc, List.drop_left, List.drop_left]
  · cases h

/-! ### Numbers -/

theorem digits_more {s : JsString} {u : UInt16} {rest : JsString}
    (h : s.dropWhile isDigit = u :: rest) (more : JsString) :
    (s ++ more).takeWhile isDigit = s.takeWhile isDigit ∧
      (s ++ more).dropWhile isDigit = u :: (rest ++ more) := by
  induction s with
  | nil => cases h
  | cons v s ih =>
      by_cases digit : isDigit v = true
      · rw [List.dropWhile_cons_of_pos digit] at h
        obtain ⟨taken, dropped⟩ := ih h
        constructor
        · rw [List.cons_append, List.takeWhile_cons_of_pos digit, List.takeWhile_cons_of_pos digit, taken]
        · rw [List.cons_append, List.dropWhile_cons_of_pos digit, dropped]
      · rw [List.dropWhile_cons_of_neg digit] at h
        cases h
        constructor
        · rw [List.cons_append, List.takeWhile_cons_of_neg digit, List.takeWhile_cons_of_neg digit]
        · rw [List.cons_append, List.dropWhile_cons_of_neg digit]

theorem parseInteger_more {s whole rest : JsString} {u : UInt16}
    (h : parseInteger s = some (whole, u :: rest)) (more : JsString) :
    parseInteger (s ++ more) = some (whole, u :: (rest ++ more)) := by
  simp only [parseInteger] at h ⊢
  split at h
  · cases h
  · rename_i digits
    obtain ⟨rfl, after⟩ := Prod.mk.inj (Option.some.inj h)
    obtain ⟨taken, dropped⟩ := digits_more after more
    simp only [taken, dropped, if_neg digits]

theorem parseFraction_more {s fraction rest : JsString} {u : UInt16}
    (h : parseFraction s = some (fraction, u :: rest)) (more : JsString) :
    parseFraction (s ++ more) = some (fraction, u :: (rest ++ more)) := by
  unfold parseFraction at h ⊢
  split at h
  · rename_i s
    split at h
    · cases h
    · rename_i digits
      obtain ⟨rfl, after⟩ := Prod.mk.inj (Option.some.inj h)
      obtain ⟨taken, dropped⟩ := digits_more after more
      simp only [List.cons_append, taken, dropped, if_neg digits]
  · rename_i s noPoint
    obtain ⟨rfl, rfl⟩ := Prod.mk.inj (Option.some.inj h)
    split
    · rename_i tail same
      cases same
      exact absurd rfl (noPoint rest)
    · rfl

theorem parseExponentSign_more {u : UInt16} {rest : JsString} (more : JsString) :
    parseExponentSign (u :: (rest ++ more)) =
      ((parseExponentSign (u :: rest)).1, (parseExponentSign (u :: rest)).2 ++ more) := by
  unfold parseExponentSign
  split <;> split <;> simp_all

theorem parseExponent_more {s rest : JsString} {u : UInt16} {e : Int}
    (h : parseExponent s = some (e, u :: rest)) (more : JsString) :
    parseExponent (s ++ more) = some (e, u :: (rest ++ more)) := by
  cases s with
  | nil => cases h
  | cons w s =>
      rw [List.cons_append]
      unfold parseExponent at h ⊢
      by_cases exponent : w = 101 ∨ w = 69
      · simp only [if_pos exponent] at h ⊢
        cases s with
        | nil => cases h
        | cons v s =>
            rw [List.cons_append, parseExponentSign_more]
            split at h
            · cases h
            · rename_i digits
              obtain ⟨same, after⟩ := Prod.mk.inj (Option.some.inj h)
              obtain ⟨taken, dropped⟩ := digits_more after more
              simp only [taken, dropped, if_neg digits, same]
      · simp only [if_neg exponent] at h ⊢
        obtain ⟨rfl, same⟩ := Prod.mk.inj (Option.some.inj h)
        cases same
        rfl

theorem parseSign_more {u : UInt16} {rest : JsString} (more : JsString) :
    parseSign (u :: (rest ++ more)) =
      ((parseSign (u :: rest)).1, (parseSign (u :: rest)).2 ++ more) := by
  unfold parseSign
  split <;> split <;> simp_all

/-- A number that something follows. -/
theorem parseNumber_more {s rest : JsString} {u : UInt16} {n : JsNumber}
    (h : parseNumber s = some (n, u :: rest)) (more : JsString) :
    parseNumber (s ++ more) = some (n, u :: (rest ++ more)) := by
  cases s with
  | nil => cases h
  | cons v s =>
      simp only [parseNumber, Option.bind_eq_bind, Option.bind_eq_some_iff] at h
      obtain ⟨⟨whole, s₁⟩, int, ⟨fraction, s₂⟩, frac, ⟨e, s₃⟩, exp, same⟩ := h
      obtain ⟨number, rfl⟩ := Prod.mk.inj (Option.some.inj same)
      cases s₂ with
      | nil => cases exp
      | cons b s₂ =>
          cases s₁ with
          | nil => cases frac
          | cons a s₁ =>
              have frac' : parseFraction (a :: (s₁ ++ more)) = _ := parseFraction_more frac more
              have exp' : parseExponent (b :: (s₂ ++ more)) = _ := parseExponent_more exp more
              simp only [parseNumber, List.cons_append, parseSign_more, parseInteger_more int, frac', exp',
                Option.bind_eq_bind, Option.bind_some]
              rw [← number]

/-! ### Values -/

/-- Only a number can go on where the text goes on. -/
def JsValue.isNumber : JsValue → Bool
  | .number _ => true
  | _ => false

theorem parseItems_blank {s : JsString} (blank : skipSpace s = []) (fuel : Nat) : parseItems fuel s = none := by
  rcases fuel with _ | _ | fuel
  · rfl
  · rfl
  · simp [parseItems, parseValue, blank]

theorem parseMembers_blank {s : JsString} (blank : skipSpace s = []) (fuel : Nat) :
    parseMembers fuel s = none := by
  cases fuel with
  | zero => rfl
  | succ fuel => simp [parseMembers, blank]

theorem parse_more (fuel : Nat) :
    (∀ {s rest v}, parseValue fuel s = some (v, rest) → (v.isNumber = true → rest ≠ []) →
      ∀ more longer, fuel ≤ longer → parseValue longer (s ++ more) = some (v, rest ++ more)) ∧
    (∀ {s rest vs}, parseItems fuel s = some (vs, rest) →
      ∀ more longer, fuel ≤ longer → parseItems longer (s ++ more) = some (vs, rest ++ more)) ∧
    (∀ {s rest ms}, parseMembers fuel s = some (ms, rest) →
      ∀ more longer, fuel ≤ longer → parseMembers longer (s ++ more) = some (ms, rest ++ more)) := by
  induction fuel with
  | zero =>
      refine ⟨?_, ?_, ?_⟩
      · intro s rest v h
        cases h
      · intro s rest vs h
        cases h
      · intro s rest ms h
        cases h
  | succ fuel ih =>
      obtain ⟨value, items, members⟩ := ih
      refine ⟨?_, ?_, ?_⟩
      · intro s rest v h ends more longer enough
        obtain ⟨longer, rfl⟩ := Nat.exists_eq_add_of_le' (Nat.lt_of_lt_of_le fuel.succ_pos enough)
        have enough' := Nat.le_of_succ_le_succ enough
        cases space : skipSpace s with
        | nil => simp [parseValue, space] at h
        | cons u tail =>
            simp only [parseValue, space, skipSpace_more space] at h ⊢
            by_cases quotes : u = 34
            · simp only [quotes, if_true, Option.map_eq_some_iff] at h ⊢
              obtain ⟨⟨text, after⟩, read, same⟩ := h
              cases same
              exact ⟨_, parseString_more read more, rfl⟩
            simp only [quotes, if_false] at h ⊢
            by_cases bracket : u = 91
            · simp only [bracket, if_true] at h ⊢
              cases inner : skipSpace tail with
              | nil => simp [inner, parseItems_blank inner] at h
              | cons w tail' =>
                  simp only [inner, skipSpace_more inner] at h ⊢
                  split at h
                  · rename_i closed
                    cases closed
                    cases h
                    rfl
                  · rename_i opened
                    obtain ⟨⟨vs, after⟩, read, same⟩ := Option.map_eq_some_iff.mp h
                    cases same
                    split
                    · rename_i closed
                      cases closed
                      exact absurd rfl (opened tail')
                    · rw [items read more longer enough']
                      rfl
            simp only [bracket, if_false] at h ⊢
            by_cases brace : u = 123
            · simp only [brace, if_true] at h ⊢
              cases inner : skipSpace tail with
              | nil => simp [inner, parseMembers_blank inner] at h
              | cons w tail' =>
                  simp only [inner, skipSpace_more inner] at h ⊢
                  split at h
                  · rename_i closed
                    cases closed
                    cases h
                    rfl
                  · rename_i opened
                    obtain ⟨⟨ms, after⟩, read, same⟩ := Option.map_eq_some_iff.mp h
                    cases same
                    split
                    · rename_i closed
                      cases closed
                      exact absurd rfl (opened tail')
                    · rw [members read more longer enough']
                      rfl
            simp only [brace, if_false] at h ⊢
            by_cases t : u = 116
            · simp only [t, if_true] at h ⊢
              exact parseKeyword_more h more
            simp only [t, if_false] at h ⊢
            by_cases f : u = 102
            · simp only [f, if_true] at h ⊢
              exact parseKeyword_more h more
            simp only [f, if_false] at h ⊢
            by_cases n : u = 110
            · simp only [n, if_true] at h ⊢
              exact parseKeyword_more h more
            simp only [n, if_false, Option.map_eq_some_iff] at h ⊢
            obtain ⟨⟨number, after⟩, read, same⟩ := h
            cases same
            cases after with
            | nil => exact absurd rfl (ends rfl)
            | cons w after => exact ⟨_, parseNumber_more read more, rfl⟩
      · intro s rest vs h more longer enough
        obtain ⟨longer, rfl⟩ := Nat.exists_eq_add_of_le' (Nat.lt_of_lt_of_le fuel.succ_pos enough)
        have enough' := Nat.le_of_succ_le_succ enough
        simp only [parseItems, Option.bind_eq_bind, Option.bind_eq_some_iff] at h ⊢
        obtain ⟨⟨v, after⟩, first, h⟩ := h
        cases space : skipSpace after with
        | nil => simp [space] at h
        | cons u tail =>
            have notEnd : after ≠ [] := by
              rintro rfl
              cases space
            simp only [space] at h
            refine ⟨(v, after ++ more), value first (fun _ => notEnd) more longer enough', ?_⟩
            simp only [skipSpace_more space]
            split at h
            · rename_i comma
              cases comma
              obtain ⟨⟨vs, after⟩, others, same⟩ := Option.bind_eq_some_iff.mp h
              cases same
              simp only [items others more longer enough']
              rfl
            · rename_i bracket
              cases bracket
              cases h
              rfl
            · cases h
      · intro s rest ms h more longer enough
        obtain ⟨longer, rfl⟩ := Nat.exists_eq_add_of_le' (Nat.lt_of_lt_of_le fuel.succ_pos enough)
        have enough' := Nat.le_of_succ_le_succ enough
        simp only [parseMembers] at h ⊢
        split at h
        · rename_i afterQuote quotes
          simp only [skipSpace_more quotes, Option.bind_eq_bind, Option.bind_eq_some_iff] at h ⊢
          obtain ⟨⟨key, afterKey⟩, readKey, h⟩ := h
          refine ⟨(key, afterKey ++ more), parseString_more readKey more, ?_⟩
          split at h
          · rename_i afterColon colon
            obtain ⟨⟨v, after⟩, readValue, h⟩ := Option.bind_eq_some_iff.mp h
            cases space : skipSpace after with
            | nil => simp [space] at h
            | cons u tail =>
                have notEnd : after ≠ [] := by
                  rintro rfl
                  cases space
                simp only [space] at h
                simp only [skipSpace_more colon, value readValue (fun _ => notEnd) more longer enough',
                  skipSpace_more space, Option.bind_some]
                split at h
                · rename_i comma
                  cases comma
                  obtain ⟨⟨ms, rest'⟩, others, same⟩ := Option.bind_eq_some_iff.mp h
                  cases same
                  simp only [members others more longer enough']
                  rfl
                · rename_i brace
                  cases brace
                  cases h
                  rfl
                · cases h
          · cases h
        · cases h

/-! ### Whole texts -/

theorem skipSpace_eq_nil {s : JsString} : skipSpace s = [] ↔ ∀ u ∈ s, isSpace u = true := by
  rw [skipSpace]
  exact List.dropWhile_eq_nil_iff

/-- What starts with a brace is no number. -/
theorem parseValue_brace {fuel : Nat} {s rest : JsString} {v : JsValue}
    (h : parseValue fuel (123 :: s) = some (v, rest)) : v.isNumber = false := by
  cases fuel with
  | zero => cases h
  | succ fuel =>
      have brace : skipSpace (123 :: s) = 123 :: s := skipSpace_of_head rfl s
      have notQuote : (123 : UInt16) ≠ 34 := by decide
      have notBracket : (123 : UInt16) ≠ 91 := by decide
      simp only [parseValue, brace, if_neg notQuote, if_neg notBracket, if_true] at h
      split at h
      · cases h
        rfl
      · obtain ⟨r, -, same⟩ := Option.map_eq_some_iff.mp h
        cases same
        rfl

theorem value_of_parseKeyword {keyword s rest : JsString} {value v : JsValue}
    (h : parseKeyword keyword s value = some (v, rest)) : v = value := by
  unfold parseKeyword at h
  split at h <;> cases h
  rfl

/-- The text of an object starts with a brace. -/
theorem brace_of_parseJson {u : UInt16} {s : JsString} {members : List (JsString × JsValue)}
    (noSpace : isSpace u = false) (h : parseJson (u :: s) = some (.object members)) : u = 123 := by
  unfold parseJson at h
  split at h
  · rename_i v rest read
    split at h
    · cases h
      simp only [parseValue, skipSpace_of_head noSpace] at read
      by_contra other
      rw [if_neg other] at read
      split at read
      · obtain ⟨r, -, same⟩ := Option.map_eq_some_iff.mp read
        cases same
      split at read
      · split at read
        · cases read
        · obtain ⟨r, -, same⟩ := Option.map_eq_some_iff.mp read
          cases same
      split at read
      · exact absurd (value_of_parseKeyword read) (by simp)
      split at read
      · exact absurd (value_of_parseKeyword read) (by simp)
      split at read
      · exact absurd (value_of_parseKeyword read) (by simp)
      · obtain ⟨r, -, same⟩ := Option.map_eq_some_iff.mp read
        cases same
    · cases h
  · cases h

/-- Where a text that starts with a brace goes on to another, only space is added. -/
theorem space_of_parseJson {start more : JsString} {v w : JsValue}
    (part : parseJson (123 :: start) = some v) (whole : parseJson (123 :: start ++ more) = some w) :
    ∀ u ∈ more, isSpace u = true := by
  unfold parseJson at part whole
  split at part
  · rename_i v' rest read
    have notNumber := parseValue_brace read
    have longer := (parse_more _).1 read (fun number => by rw [notNumber] at number; cases number) more
      ((123 :: start ++ more).length + 1) (by simp)
    rw [longer] at whole
    simp only at whole
    split at whole
    · rename_i space
      intro u member
      exact skipSpace_eq_nil.mp space u (List.mem_append_right _ member)
    · cases whole
  · cases part

end PortableCodex.Js
