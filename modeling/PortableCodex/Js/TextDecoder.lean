import PortableCodex.Js.Utf8

/-!
The fatal decoder, `new TextDecoder("utf-8", { fatal: true })`: it decodes as `decodeUtf8` does
and throws where that writes a replacement character for an ill-formed sequence.

It accepts what `encodeUtf8` writes of a well-formed text (`decodeFatal_encodeUtf8`). Where it
accepts a beginning of what it accepts, the texts are beginnings of each other too
(`decodeFatal_append`), so a cut inside a character is always seen.
-/

namespace PortableCodex.Js

/-- The byte continues the unfinished sequence, or starts one. -/
def Decoder.expects (st : Decoder) (b : UInt8) : Bool :=
  if st.needed = 0 then b.toNat < 0x80 || (0xC2 ≤ b.toNat && b.toNat ≤ 0xF4)
  else st.lower ≤ b.toNat && b.toNat ≤ st.upper

/-- No sequence of the bytes is ill-formed. -/
def Decoder.accepts : Decoder → Bytes → Bool
  | st, [] => st.needed = 0
  | st, b :: rest => st.expects b && (st.step b).2.accepts rest

/-- `decoder.decode(bytes)` of bytes that start with no byte order mark. -/
def decodeFatal (bytes : Bytes) : Option JsString :=
  if Decoder.initial.accepts bytes then some (decodeUtf8 bytes) else none

example : decodeFatal (encodeUtf8 (js "é€😀")) = some (js "é€😀") := by decide
example : decodeFatal [0xE2, 0x82] = none := by decide

/-! ### Cuts -/

theorem Decoder.step_of_needed {st : Decoder} (done : st.needed = 0) (b : UInt8) :
    st.step b = Decoder.initial.step b := by
  simp only [Decoder.step, done, Decoder.initial, if_true]

theorem Decoder.run_of_needed {st : Decoder} (done : st.needed = 0) (bytes : Bytes) :
    st.run bytes = Decoder.initial.run bytes := by
  cases bytes with
  | nil => simp only [Decoder.run, done, Decoder.initial]
  | cons b bytes => simp only [Decoder.run, step_of_needed done]

/-- Bytes that end between two characters. -/
theorem Decoder.run_append {st : Decoder} {first : Bytes} (h : st.accepts first = true) (second : Bytes) :
    st.run (first ++ second) = st.run first ++ Decoder.initial.run second := by
  induction first generalizing st with
  | nil =>
      have done : st.needed = 0 := by simpa [Decoder.accepts] using h
      simp only [List.nil_append, run_of_needed done, Decoder.run, done, if_true]
  | cons b first ih =>
      rw [Decoder.accepts, Bool.and_eq_true] at h
      rw [List.cons_append, Decoder.run, Decoder.run, ih h.2, List.append_assoc]

theorem codePointUnits_ne_nil (c : Nat) : codePointUnits c ≠ [] := by
  unfold codePointUnits
  split <;> simp

theorem Decoder.first_needed {b : UInt8} (h : (Decoder.first b).1 = []) : (Decoder.first b).2.needed ≠ 0 := by
  unfold Decoder.first at h ⊢
  simp only at h ⊢
  split at h
  · cases h
  · rename_i large
    rw [if_neg large]
    split
    · exact one_ne_zero
    split
    · exact two_ne_zero
    split
    · exact three_ne_zero
    · rename_i no2 no3 no4
      simp [no2, no3, no4] at h

/-- A byte that completes no character leaves the sequence unfinished. -/
theorem Decoder.needed_of_step {st : Decoder} {b : UInt8} (h : (st.step b).1 = []) : (st.step b).2.needed ≠ 0 := by
  unfold Decoder.step at h ⊢
  split at h
  · rename_i start
    rw [if_pos start]
    exact first_needed h
  · rename_i unfinished
    rw [if_neg unfinished]
    split at h
    · cases h
    · rename_i inside
      rw [if_neg inside]
      simp only at h ⊢
      split at h
      · exact absurd h (codePointUnits_ne_nil _)
      · rename_i more
        rw [if_neg more]
        show st.needed - 1 ≠ 0
        omega

theorem Decoder.run_ne_nil {st : Decoder} {bytes : Bytes} (h : bytes ≠ [] ∨ st.needed ≠ 0) :
    st.run bytes ≠ [] := by
  induction bytes generalizing st with
  | nil =>
      rcases h with h | h
      · exact absurd rfl h
      · simp [Decoder.run, h]
  | cons b bytes ih =>
      intro nothing
      rw [Decoder.run, List.append_eq_nil_iff] at nothing
      exact ih (.inr (needed_of_step nothing.1)) nothing.2

/-- Bytes cut short: the text of the beginning is a beginning of the text. -/
theorem decodeFatal_append {first second : Bytes} {text whole : JsString} (part : decodeFatal first = some text)
    (all : decodeFatal (first ++ second) = some whole) :
    whole = text ++ decodeUtf8 second ∧ (second ≠ [] → decodeUtf8 second ≠ []) := by
  unfold decodeFatal at part all
  split at part
  · rename_i accepted
    cases part
    split at all
    · cases all
      exact ⟨Decoder.run_append accepted second, fun more => Decoder.run_ne_nil (.inl more)⟩
    · cases all
  · cases part

/-! ### Well-formed texts -/

theorem Decoder.accepts_cons {st st' : Decoder} {b : UInt8} {out : JsString} (expected : st.expects b = true)
    (h : st.step b = (out, st')) (rest : Bytes) : st.accepts (b :: rest) = st'.accepts rest := by
  rw [Decoder.accepts, expected, h, Bool.true_and]

theorem Decoder.expects_first {n : Nat} (h : n < 0x80 ∨ (0xC2 ≤ n ∧ n ≤ 0xF4)) :
    Decoder.initial.expects (byte n) = true := by
  have value : (byte n).toNat = n := byte_toNat (by omega)
  simpa [Decoder.expects, Decoder.initial, value] using h

theorem Decoder.expects_tail {c k n lower upper : Nat} (hi : n < 0x40) (lo : lower ≤ 0x80 + n)
    (up : 0x80 + n ≤ upper) : (Decoder.mk c (k + 1) lower upper).expects (byte (0x80 + n)) = true := by
  have value : (byte (0x80 + n)).toNat = 0x80 + n := byte_toNat (by omega)
  simp [Decoder.expects, value, lo, up]

theorem accepts_encodeUnit {u : UInt16} (high : isHighSurrogate u = false) (low : isLowSurrogate u = false)
    (rest : Bytes) : Decoder.initial.accepts (encodeUnit u ++ rest) = Decoder.initial.accepts rest := by
  have bound : u.toNat < 0x10000 := u.toNat_lt
  have plain : ¬ (0xD800 ≤ u.toNat ∧ u.toNat ≤ 0xDFFF) := by
    simp only [isHighSurrogate, isLowSurrogate, decide_eq_false_iff_not] at high low
    omega
  have noSurrogate : ¬ (isHighSurrogate u || isLowSurrogate u) = true := by simp [high, low]
  unfold encodeUnit
  rw [if_neg noSurrogate]
  split
  · rename_i small
    rw [List.singleton_append, Decoder.accepts_cons (Decoder.expects_first (.inl small)) (Decoder.step_ascii small)]
  split
  · have tail := Decoder.step_tail (u.toNat / 0x40) 0 (u.toNat % 0x40) 0x80 0xBF (by omega) (by omega) (by omega)
    rw [if_pos rfl] at tail
    rw [List.cons_append, Decoder.accepts_cons (Decoder.expects_first (by omega))
      (Decoder.step_lead2 (by omega) (by omega)), List.singleton_append,
      Decoder.accepts_cons (Decoder.expects_tail (by omega) (by omega) (by omega)) tail]
  · have mid := Decoder.step_tail (u.toNat / 0x1000) 1 (u.toNat / 0x40 % 0x40)
      (if u.toNat / 0x1000 = 0 then 0xA0 else 0x80) (if u.toNat / 0x1000 = 0xD then 0x9F else 0xBF)
      (by omega) (by split <;> omega) (by split <;> omega)
    rw [if_neg one_ne_zero] at mid
    have tail := Decoder.step_tail (u.toNat / 0x1000 * 0x40 + u.toNat / 0x40 % 0x40) 0 (u.toNat % 0x40)
      0x80 0xBF (by omega) (by omega) (by omega)
    rw [if_pos rfl] at tail
    rw [List.cons_append, Decoder.accepts_cons (Decoder.expects_first (by omega)) (Decoder.step_lead3 (by omega)),
      List.cons_append, Decoder.accepts_cons
        (Decoder.expects_tail (by omega) (by split <;> omega) (by split <;> omega)) mid,
      List.singleton_append,
      Decoder.accepts_cons (Decoder.expects_tail (by omega) (by omega) (by omega)) tail]

theorem accepts_encodePair {u v : UInt16} (high : isHighSurrogate u = true) (low : isLowSurrogate v = true)
    (rest : Bytes) : Decoder.initial.accepts (encodePair u v ++ rest) = Decoder.initial.accepts rest := by
  simp only [isHighSurrogate, isLowSurrogate, decide_eq_true_eq] at high low
  have range : 0x10000 ≤ pairCodePoint u v ∧ pairCodePoint u v < 0x110000 := by
    unfold pairCodePoint
    omega
  simp only [encodePair]
  generalize pairCodePoint u v = c at range
  have second := Decoder.step_tail (c / 0x40000) 2 (c / 0x1000 % 0x40)
    (if c / 0x40000 = 0 then 0x90 else 0x80) (if c / 0x40000 = 4 then 0x8F else 0xBF)
    (by omega) (by split <;> omega) (by split <;> omega)
  rw [if_neg two_ne_zero] at second
  have third := Decoder.step_tail (c / 0x40000 * 0x40 + c / 0x1000 % 0x40) 1 (c / 0x40 % 0x40)
    0x80 0xBF (by omega) (by omega) (by omega)
  rw [if_neg one_ne_zero] at third
  have fourth := Decoder.step_tail ((c / 0x40000 * 0x40 + c / 0x1000 % 0x40) * 0x40 + c / 0x40 % 0x40) 0 (c % 0x40)
    0x80 0xBF (by omega) (by omega) (by omega)
  rw [if_pos rfl] at fourth
  rw [List.cons_append, Decoder.accepts_cons (Decoder.expects_first (by omega)) (Decoder.step_lead4 (by omega)),
    List.cons_append, Decoder.accepts_cons
      (Decoder.expects_tail (by omega) (by split <;> omega) (by split <;> omega)) second,
    List.cons_append, Decoder.accepts_cons (Decoder.expects_tail (by omega) (by omega) (by omega)) third,
    List.singleton_append, Decoder.accepts_cons (Decoder.expects_tail (by omega) (by omega) (by omega)) fourth]

theorem decodeFatal_encodeUtf8 {s : JsString} (h : WellFormed s) : decodeFatal (encodeUtf8 s) = some s := by
  have accepted : Decoder.initial.accepts (encodeUtf8 s) = true := by
    induction s using WellFormed.induct with
    | case1 => rfl
    | case2 u =>
        have unit := accepts_encodeUnit h.1 h.2 []
        rw [List.append_nil] at unit
        rw [encodeUtf8, unit]
        rfl
    | case3 u v rest pair ih =>
        have both := Bool.and_eq_true_iff.mp pair
        rw [WellFormed, if_pos pair] at h
        rw [encodeUtf8, if_pos pair, accepts_encodePair both.1 both.2, ih h]
    | case4 u v rest pair ih =>
        rw [WellFormed, if_neg pair] at h
        rw [encodeUtf8, if_neg pair, accepts_encodeUnit h.1.1 h.1.2, ih h.2]
  rw [decodeFatal, if_pos accepted, (lossless_iff_wellFormed s).mpr h]

end PortableCodex.Js
