import PortableCodex.Js.Text

/-!
UTF-8 as `Buffer.from(text, "utf8")` writes it and `buffer.toString("utf8")` reads it.

Encoding replaces an unpaired surrogate by U+FFFD; decoding replaces every ill-formed
sequence by U+FFFD, resuming at the first byte that cannot continue it. The round trip
`decodeUtf8 (encodeUtf8 s)` is `s` with its unpaired surrogates replaced
(`decodeUtf8_encodeUtf8`), so it is the identity exactly on well-formed strings
(`lossless_iff_wellFormed`).
-/

namespace PortableCodex.Js

/-- The bytes of a buffer. -/
abbrev Bytes := List UInt8

def isHighSurrogate (u : UInt16) : Bool := 0xD800 ≤ u.toNat ∧ u.toNat ≤ 0xDBFF

def isLowSurrogate (u : UInt16) : Bool := 0xDC00 ≤ u.toNat ∧ u.toNat ≤ 0xDFFF

/-- U+FFFD, the replacement character. -/
def replacement : UInt16 := 0xFFFD

def byte (n : Nat) : UInt8 := UInt8.ofNat n

/-- The bytes of a code unit outside a surrogate pair. -/
def encodeUnit (u : UInt16) : Bytes :=
  if u.toNat < 0x80 then [byte u.toNat]
  else if u.toNat < 0x800 then [byte (0xC0 + u.toNat / 0x40), byte (0x80 + u.toNat % 0x40)]
  else if isHighSurrogate u || isLowSurrogate u then [0xEF, 0xBF, 0xBD]
  else [byte (0xE0 + u.toNat / 0x1000), byte (0x80 + u.toNat / 0x40 % 0x40),
    byte (0x80 + u.toNat % 0x40)]

/-- The code point of a surrogate pair. -/
def pairCodePoint (u v : UInt16) : Nat := 0x10000 + (u.toNat - 0xD800) * 0x400 + (v.toNat - 0xDC00)

/-- The bytes of a surrogate pair. -/
def encodePair (u v : UInt16) : Bytes :=
  let c := pairCodePoint u v
  [byte (0xF0 + c / 0x40000), byte (0x80 + c / 0x1000 % 0x40), byte (0x80 + c / 0x40 % 0x40),
    byte (0x80 + c % 0x40)]

/-- `Buffer.from(text, "utf8")` -/
def encodeUtf8 : JsString → Bytes
  | [] => []
  | [u] => encodeUnit u
  | u :: v :: rest =>
      if isHighSurrogate u && isLowSurrogate v then encodePair u v ++ encodeUtf8 rest
      else encodeUnit u ++ encodeUtf8 (v :: rest)

/-- What the decoder has read of an unfinished sequence: its code point so far, the number of
bytes still needed, and the least and greatest byte that may come next. -/
structure Decoder where
  codePoint : Nat
  needed : Nat
  lower : Nat
  upper : Nat

def Decoder.initial : Decoder := ⟨0, 0, 0x80, 0xBF⟩

/-- The first byte of a sequence: what it decodes to by itself and what must follow. -/
def Decoder.first (b : UInt8) : JsString × Decoder :=
  let n := b.toNat
  if n < 0x80 then ([UInt16.ofNat n], .initial)
  else if 0xC2 ≤ n ∧ n ≤ 0xDF then ([], ⟨n % 0x20, 1, 0x80, 0xBF⟩)
  else if 0xE0 ≤ n ∧ n ≤ 0xEF then
    ([], ⟨n % 0x10, 2, if n = 0xE0 then 0xA0 else 0x80, if n = 0xED then 0x9F else 0xBF⟩)
  else if 0xF0 ≤ n ∧ n ≤ 0xF4 then
    ([], ⟨n % 0x8, 3, if n = 0xF0 then 0x90 else 0x80, if n = 0xF4 then 0x8F else 0xBF⟩)
  else ([replacement], .initial)

/-- The code units of a decoded code point. -/
def codePointUnits (c : Nat) : JsString :=
  if c < 0x10000 then [UInt16.ofNat c]
  else [UInt16.ofNat (0xD800 + (c - 0x10000) / 0x400), UInt16.ofNat (0xDC00 + (c - 0x10000) % 0x400)]

/-- One byte: the code units it completes and the decoder after it. -/
def Decoder.step (st : Decoder) (b : UInt8) : JsString × Decoder :=
  if st.needed = 0 then Decoder.first b
  else if b.toNat < st.lower ∨ st.upper < b.toNat then
    -- the unfinished sequence is ill-formed, and `b` starts the next one
    (replacement :: (Decoder.first b).1, (Decoder.first b).2)
  else
    let c := st.codePoint * 0x40 + b.toNat % 0x40
    if st.needed = 1 then (codePointUnits c, .initial)
    else ([], ⟨c, st.needed - 1, 0x80, 0xBF⟩)

def Decoder.run : Decoder → Bytes → JsString
  | st, [] => if st.needed = 0 then [] else [replacement]
  | st, b :: rest => (st.step b).1 ++ (st.step b).2.run rest

/-- `buffer.toString("utf8")` -/
def decodeUtf8 (bytes : Bytes) : JsString := Decoder.initial.run bytes

/-- `Buffer.from(s, "utf8").toString("utf8") === s` -/
def Lossless (s : JsString) : Prop := decodeUtf8 (encodeUtf8 s) = s

instance (s : JsString) : Decidable (Lossless s) := inferInstanceAs (Decidable (_ = _))

/-- Every surrogate belongs to a pair. -/
def WellFormed : JsString → Prop
  | [] => True
  | [u] => isHighSurrogate u = false ∧ isLowSurrogate u = false
  | u :: v :: rest =>
      if isHighSurrogate u && isLowSurrogate v then WellFormed rest
      else (isHighSurrogate u = false ∧ isLowSurrogate u = false) ∧ WellFormed (v :: rest)

/-- The string with its unpaired surrogates replaced. -/
def replaceUnpaired : JsString → JsString
  | [] => []
  | [u] => [if isHighSurrogate u || isLowSurrogate u then replacement else u]
  | u :: v :: rest =>
      if isHighSurrogate u && isLowSurrogate v then u :: v :: replaceUnpaired rest
      else (if isHighSurrogate u || isLowSurrogate u then replacement else u) ::
        replaceUnpaired (v :: rest)

example : decodeUtf8 (encodeUtf8 (js "aé€😀")) = js "aé€😀" := by decide
example : decodeUtf8 [0xF0, 0x9F, 0x41] = [replacement, 65] := by decide

/-! ### Decoding what was encoded -/

theorem byte_toNat {n : Nat} (h : n < 256) : (byte n).toNat = n :=
  UInt8.toNat_ofNat_of_lt' (by unfold UInt8.size; omega)

theorem Decoder.run_cons {st st' : Decoder} {b : UInt8} {out : JsString} (h : st.step b = (out, st'))
    (rest : Bytes) : st.run (b :: rest) = out ++ st'.run rest := by
  simp only [Decoder.run, h]

theorem Decoder.step_ascii {n : Nat} (h : n < 0x80) :
    Decoder.initial.step (byte n) = ([UInt16.ofNat n], .initial) := by
  have value : (byte n).toNat = n := byte_toNat (by omega)
  simp only [Decoder.step, Decoder.initial, Decoder.first, value, if_true, if_pos h]

theorem Decoder.step_lead2 {n : Nat} (lo : 2 ≤ n) (hi : n < 0x20) :
    Decoder.initial.step (byte (0xC0 + n)) = ([], ⟨n, 1, 0x80, 0xBF⟩) := by
  have value : (byte (0xC0 + n)).toNat = 0xC0 + n := byte_toNat (by omega)
  have small : ¬ 0xC0 + n < 0x80 := by omega
  have range : 0xC2 ≤ 0xC0 + n ∧ 0xC0 + n ≤ 0xDF := by omega
  have bits : (0xC0 + n) % 0x20 = n := by omega
  simp only [Decoder.step, Decoder.initial, Decoder.first, value, if_true, if_neg small, if_pos range,
    bits]

theorem Decoder.step_lead3 {n : Nat} (hi : n < 0x10) :
    Decoder.initial.step (byte (0xE0 + n)) =
      ([], ⟨n, 2, if n = 0 then 0xA0 else 0x80, if n = 0xD then 0x9F else 0xBF⟩) := by
  have value : (byte (0xE0 + n)).toNat = 0xE0 + n := byte_toNat (by omega)
  have small : ¬ 0xE0 + n < 0x80 := by omega
  have two : ¬ (0xC2 ≤ 0xE0 + n ∧ 0xE0 + n ≤ 0xDF) := by omega
  have range : 0xE0 ≤ 0xE0 + n ∧ 0xE0 + n ≤ 0xEF := by omega
  have bits : (0xE0 + n) % 0x10 = n := by omega
  have least : 0xE0 + n = 0xE0 ↔ n = 0 := by omega
  have surrogates : 0xE0 + n = 0xED ↔ n = 0xD := by omega
  simp only [Decoder.step, Decoder.initial, Decoder.first, value, if_true, if_neg small, if_neg two,
    if_pos range, bits, least, surrogates]

theorem Decoder.step_lead4 {n : Nat} (hi : n < 5) :
    Decoder.initial.step (byte (0xF0 + n)) =
      ([], ⟨n, 3, if n = 0 then 0x90 else 0x80, if n = 4 then 0x8F else 0xBF⟩) := by
  have value : (byte (0xF0 + n)).toNat = 0xF0 + n := byte_toNat (by omega)
  have small : ¬ 0xF0 + n < 0x80 := by omega
  have two : ¬ (0xC2 ≤ 0xF0 + n ∧ 0xF0 + n ≤ 0xDF) := by omega
  have three : ¬ (0xE0 ≤ 0xF0 + n ∧ 0xF0 + n ≤ 0xEF) := by omega
  have range : 0xF0 ≤ 0xF0 + n ∧ 0xF0 + n ≤ 0xF4 := by omega
  have bits : (0xF0 + n) % 0x8 = n := by omega
  have least : 0xF0 + n = 0xF0 ↔ n = 0 := by omega
  have greatest : 0xF0 + n = 0xF4 ↔ n = 4 := by omega
  simp only [Decoder.step, Decoder.initial, Decoder.first, value, if_true, if_neg small, if_neg two,
    if_neg three, if_pos range, bits, least, greatest]

/-- A continuation byte within the bounds the decoder expects. -/
theorem Decoder.step_tail (c k n lower upper : Nat) (hi : n < 0x40) (lo : lower ≤ 0x80 + n)
    (up : 0x80 + n ≤ upper) :
    (Decoder.mk c (k + 1) lower upper).step (byte (0x80 + n)) =
      if k = 0 then (codePointUnits (c * 0x40 + n), .initial)
      else ([], ⟨c * 0x40 + n, k, 0x80, 0xBF⟩) := by
  have value : (byte (0x80 + n)).toNat = 0x80 + n := byte_toNat (by omega)
  have inside : ¬ (0x80 + n < lower ∨ upper < 0x80 + n) := by omega
  have bits : (0x80 + n) % 0x40 = n := by omega
  simp only [Decoder.step, value, if_neg inside, bits, Nat.add_eq_zero_iff, one_ne_zero, and_false,
    if_false, Nat.add_eq_right, Nat.add_sub_cancel]

theorem codePointUnits_toNat (u : UInt16) : codePointUnits u.toNat = [u] := by
  rw [codePointUnits, if_pos u.toNat_lt, UInt16.ofNat_toNat]

theorem run_encodeUnit (u : UInt16) (rest : Bytes) :
    Decoder.initial.run (encodeUnit u ++ rest) =
      (if isHighSurrogate u || isLowSurrogate u then replacement else u) ::
        Decoder.initial.run rest := by
  have bound : u.toNat < 0x10000 := u.toNat_lt
  by_cases surrogate : (isHighSurrogate u || isLowSurrogate u) = true
  · have range : 0x800 ≤ u.toNat := by
      simp only [isHighSurrogate, isLowSurrogate, Bool.or_eq_true, decide_eq_true_eq] at surrogate
      omega
    simp only [encodeUnit, if_neg (by omega : ¬ u.toNat < 0x80), if_neg (by omega : ¬ u.toNat < 0x800),
      if_pos surrogate]
    rfl
  · have plain : ¬ (0xD800 ≤ u.toNat ∧ u.toNat ≤ 0xDFFF) := by
      simp only [isHighSurrogate, isLowSurrogate, Bool.or_eq_true, decide_eq_true_eq] at surrogate
      omega
    rw [if_neg surrogate]
    unfold encodeUnit
    split
    · rename_i small
      rw [List.singleton_append, Decoder.run_cons (Decoder.step_ascii small), UInt16.ofNat_toNat]
      rfl
    split
    · rename_i _ small
      have value : u.toNat / 0x40 * 0x40 + u.toNat % 0x40 = u.toNat := by omega
      have tail := Decoder.step_tail (u.toNat / 0x40) 0 (u.toNat % 0x40)
        0x80 0xBF (by omega) (by omega) (by omega)
      rw [if_pos rfl, value, codePointUnits_toNat] at tail
      rw [List.cons_append, Decoder.run_cons (Decoder.step_lead2 (by omega) (by omega)),
        List.singleton_append, Decoder.run_cons tail]
      rfl
    · rename_i _ large
      have mid := Decoder.step_tail (u.toNat / 0x1000) 1 (u.toNat / 0x40 % 0x40)
        (if u.toNat / 0x1000 = 0 then 0xA0 else 0x80) (if u.toNat / 0x1000 = 0xD then 0x9F else 0xBF)
        (by omega) (by split <;> omega) (by split <;> omega)
      have high : u.toNat / 0x1000 * 0x40 + u.toNat / 0x40 % 0x40 = u.toNat / 0x40 := by omega
      rw [if_neg one_ne_zero, high] at mid
      have value : u.toNat / 0x40 * 0x40 + u.toNat % 0x40 = u.toNat := by omega
      have tail := Decoder.step_tail (u.toNat / 0x40) 0 (u.toNat % 0x40)
        0x80 0xBF (by omega) (by omega) (by omega)
      rw [if_pos rfl, value, codePointUnits_toNat] at tail
      rw [List.cons_append, Decoder.run_cons (Decoder.step_lead3 (by omega)), List.cons_append,
        Decoder.run_cons mid, List.singleton_append, Decoder.run_cons tail]
      rfl

theorem run_encodePair {u v : UInt16} (high : isHighSurrogate u = true) (low : isLowSurrogate v = true)
    (rest : Bytes) :
    Decoder.initial.run (encodePair u v ++ rest) = u :: v :: Decoder.initial.run rest := by
  simp only [isHighSurrogate, isLowSurrogate, decide_eq_true_eq] at high low
  have range : 0x10000 ≤ pairCodePoint u v ∧ pairCodePoint u v < 0x110000 := by
    unfold pairCodePoint; omega
  have units : codePointUnits (pairCodePoint u v) = [u, v] := by
    have eu : 0xD800 + (pairCodePoint u v - 0x10000) / 0x400 = u.toNat := by unfold pairCodePoint; omega
    have ev : 0xDC00 + (pairCodePoint u v - 0x10000) % 0x400 = v.toNat := by unfold pairCodePoint; omega
    rw [codePointUnits, if_neg (by omega), eu, ev, UInt16.ofNat_toNat, UInt16.ofNat_toNat]
  simp only [encodePair]
  generalize pairCodePoint u v = c at range units
  have second := Decoder.step_tail (c / 0x40000) 2 (c / 0x1000 % 0x40)
    (if c / 0x40000 = 0 then 0x90 else 0x80) (if c / 0x40000 = 4 then 0x8F else 0xBF)
    (by omega) (by split <;> omega) (by split <;> omega)
  have second' : c / 0x40000 * 0x40 + c / 0x1000 % 0x40 = c / 0x1000 := by omega
  rw [if_neg two_ne_zero, second'] at second
  have third := Decoder.step_tail (c / 0x1000) 1 (c / 0x40 % 0x40)
    0x80 0xBF (by omega) (by omega) (by omega)
  have third' : c / 0x1000 * 0x40 + c / 0x40 % 0x40 = c / 0x40 := by omega
  rw [if_neg one_ne_zero, third'] at third
  have fourth := Decoder.step_tail (c / 0x40) 0 (c % 0x40)
    0x80 0xBF (by omega) (by omega) (by omega)
  have fourth' : c / 0x40 * 0x40 + c % 0x40 = c := by omega
  rw [if_pos rfl, fourth', units] at fourth
  rw [List.cons_append, Decoder.run_cons (Decoder.step_lead4 (by omega)), List.cons_append,
    Decoder.run_cons second, List.cons_append, Decoder.run_cons third, List.singleton_append,
    Decoder.run_cons fourth]
  rfl

/-- Writing a string and reading it back replaces its unpaired surrogates. -/
theorem decodeUtf8_encodeUtf8 (s : JsString) : decodeUtf8 (encodeUtf8 s) = replaceUnpaired s := by
  unfold decodeUtf8
  fun_induction encodeUtf8 s with
  | case1 => rfl
  | case2 u =>
      have unit := run_encodeUnit u []
      rw [List.append_nil] at unit
      rw [unit]
      rfl
  | case3 u v rest pair ih =>
      have both := Bool.and_eq_true_iff.mp pair
      rw [run_encodePair both.1 both.2, ih, replaceUnpaired, if_pos pair]
  | case4 u v rest pair ih => rw [run_encodeUnit, ih, replaceUnpaired, if_neg pair]

theorem replaceUnpaired_eq_self_iff (s : JsString) : replaceUnpaired s = s ↔ WellFormed s := by
  have unit : ∀ u : UInt16,
      (if isHighSurrogate u || isLowSurrogate u then replacement else u) = u ↔
        isHighSurrogate u = false ∧ isLowSurrogate u = false := by
    intro u
    rw [← Bool.or_eq_false_iff]
    split
    · rename_i surrogate
      refine ⟨fun same => absurd (same ▸ surrogate) (by decide), fun plain => ?_⟩
      rw [plain] at surrogate
      cases surrogate
    · rename_i plain
      exact ⟨fun _ => Bool.not_eq_true _ ▸ plain, fun _ => rfl⟩
  fun_induction replaceUnpaired s with
  | case1 => simp [WellFormed]
  | case2 u => simpa [WellFormed] using unit u
  | case3 u v rest pair ih => simp [WellFormed, pair, ih]
  | case4 u v rest pair ih =>
      simp only [WellFormed, if_neg pair, List.cons.injEq, unit u, ih]

/-- A string survives the round trip through UTF-8 iff it is well-formed. -/
theorem lossless_iff_wellFormed (s : JsString) : Lossless s ↔ WellFormed s := by
  rw [Lossless, decodeUtf8_encodeUtf8, replaceUnpaired_eq_self_iff]

/-! ### Concatenation -/

theorem encodeUtf8_cons {u : UInt16} (h : isHighSurrogate u = false) (s : JsString) :
    encodeUtf8 (u :: s) = encodeUnit u ++ encodeUtf8 s := by
  cases s with
  | nil => rw [encodeUtf8, encodeUtf8, List.append_nil]
  | cons v s => rw [encodeUtf8, h, Bool.false_and, if_neg Bool.false_ne_true]

theorem encodeUtf8_append (a : JsString) {b : JsString} (h : ∀ u ∈ b.head?, isLowSurrogate u = false) :
    encodeUtf8 (a ++ b) = encodeUtf8 a ++ encodeUtf8 b := by
  induction a using encodeUtf8.induct with
  | case1 => rfl
  | case2 u =>
      cases b with
      | nil => rw [List.append_nil, encodeUtf8, encodeUtf8, List.append_nil]
      | cons v b =>
          have single : (isHighSurrogate u && isLowSurrogate v) = false := by
            rw [h v rfl, Bool.and_false]
          have pair : encodeUtf8 (u :: v :: b) = encodeUnit u ++ encodeUtf8 (v :: b) := by
            rw [encodeUtf8, single, if_neg Bool.false_ne_true]
          rw [List.singleton_append, pair, encodeUtf8]
  | case3 u v rest pair ih =>
      rw [List.cons_append, List.cons_append, encodeUtf8, if_pos pair, encodeUtf8, if_pos pair, ih,
        List.append_assoc]
  | case4 u v rest single ih =>
      rw [List.cons_append, List.cons_append, encodeUtf8, if_neg single, encodeUtf8, if_neg single,
        ← List.cons_append, ih, List.append_assoc]

theorem wellFormed_append {a b : JsString} (first : WellFormed a) (second : WellFormed b) :
    WellFormed (a ++ b) := by
  induction a using WellFormed.induct with
  | case1 => exact second
  | case2 u =>
      cases b with
      | nil => exact first
      | cons v b =>
          show WellFormed (u :: v :: b)
          obtain ⟨high, low⟩ := first
          rw [WellFormed, high, Bool.false_and, if_neg Bool.false_ne_true]
          exact ⟨⟨rfl, low⟩, second⟩
  | case3 u v rest pair ih =>
      rw [WellFormed, if_pos pair] at first
      rw [List.cons_append, List.cons_append, WellFormed, if_pos pair]
      exact ih first
  | case4 u v rest single ih =>
      rw [WellFormed, if_neg single] at first
      rw [List.cons_append, List.cons_append, WellFormed, if_neg single]
      exact ⟨first.1, ih first.2⟩

/-- A text of units that are no surrogates. -/
theorem wellFormed_of_plain {s : JsString} (h : ∀ u ∈ s, u.toNat < 0xD800) : WellFormed s := by
  have plain (u : UInt16) (less : u.toNat < 0xD800) : isHighSurrogate u = false ∧ isLowSurrogate u = false := by
    simp only [isHighSurrogate, isLowSurrogate, decide_eq_false_iff_not]
    omega
  induction s using WellFormed.induct with
  | case1 => trivial
  | case2 u => exact plain u (h u List.mem_cons_self)
  | case3 u v rest pair ih =>
      have := (plain u (h u List.mem_cons_self)).1
      rw [this] at pair
      cases pair
  | case4 u v rest single ih =>
      rw [WellFormed, if_neg single]
      exact ⟨plain u (h u List.mem_cons_self), ih fun w member => h w (List.mem_cons_of_mem _ member)⟩

end PortableCodex.Js
