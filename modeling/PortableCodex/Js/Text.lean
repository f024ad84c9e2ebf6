import Mathlib.Order.Defs.LinearOrder
import Mathlib.Data.List.Lex
import Mathlib.Data.Nat.Digits.Defs

/-!
JavaScript strings as their UTF-16 code units.

Equality and the default `Array.prototype.sort` order of strings compare code units, so a
string is a list of them and the order is the lexicographic one. `js` reads a literal; the
patterns at the end are the character tests that regular expressions are built from.
-/

namespace PortableCodex.Js

instance unitOrder : LinearOrder UInt16 where
  le_refl := UInt16.le_refl
  le_trans _ _ _ := UInt16.le_trans
  lt_iff_le_not_ge a b := by
    simp only [UInt16.lt_iff_toNat_lt, UInt16.le_iff_toNat_le]
    omega
  le_antisymm _ _ := UInt16.le_antisymm
  le_total := UInt16.le_total
  toDecidableLE := inferInstance
  toDecidableEq := inferInstance
  toDecidableLT := inferInstance

/-- A JavaScript string: its UTF-16 code units. -/
abbrev JsString := List UInt16

/-- A test of all members of a list looks at the members, also where their type is finite. -/
instance forallMember {α : Type} (s : List α) (P : α → Prop) [DecidablePred P] :
    Decidable (∀ a ∈ s, P a) :=
  List.decidableBAll P s

instance member {α : Type} [DecidableEq α] (a : α) (s : List α) : Decidable (a ∈ s) :=
  List.instDecidableMemOfLawfulBEq a s

/-- The code units of one Unicode scalar value. -/
def unitsOf (c : Char) : JsString :=
  if c.toNat < 0x10000 then [UInt16.ofNat c.toNat]
  else [UInt16.ofNat (0xD800 + (c.toNat - 0x10000) / 0x400),
    UInt16.ofNat (0xDC00 + (c.toNat - 0x10000) % 0x400)]

/-- A string literal of the source. -/
def js (s : String) : JsString := s.toList.flatMap unitsOf

example : js "id" = [105, 100] := by decide

/-! ### Character classes -/

def isDigit (u : UInt16) : Bool := 48 ≤ u.toNat ∧ u.toNat ≤ 57

def isLowerHex (u : UInt16) : Bool := isDigit u ∨ (97 ≤ u.toNat ∧ u.toNat ≤ 102)

def isAlphanumeric (u : UInt16) : Bool :=
  isDigit u ∨ (65 ≤ u.toNat ∧ u.toNat ≤ 90) ∨ (97 ≤ u.toNat ∧ u.toNat ≤ 122)

/-- `[A-Za-z0-9._:-]` -/
def isOpaqueUnit (u : UInt16) : Bool :=
  isAlphanumeric u ∨ u = 46 ∨ u = 95 ∨ u = 58 ∨ u = 45

/-! ### Decimal integers -/

/-- The digit `d` as a code unit. -/
def digitUnit (d : Nat) : UInt16 := UInt16.ofNat (48 + d)

/-- The lower-case hexadecimal digit `d` as a code unit. -/
def hexUnit (d : Nat) : UInt16 := UInt16.ofNat (if d < 10 then 48 + d else 87 + d)

/-- `String(n)` of a nonnegative integer: decimal digits, most significant first. -/
def decimal (n : Nat) : JsString :=
  if n = 0 then [48] else ((Nat.digits 10 n).map digitUnit).reverse

/-- The value of a run of decimal digits. -/
def digitsValue (s : JsString) : Nat :=
  s.foldl (fun acc u => acc * 10 + (u.toNat - 48)) 0

example : decimal 1024 = js "1024" := by decide
example : digitsValue (js "1024") = 1024 := by decide

theorem digitUnit_toNat {d : Nat} (h : d < 10) : (digitUnit d).toNat = 48 + d := by
  unfold digitUnit
  exact UInt16.toNat_ofNat_of_lt' (by unfold UInt16.size; omega)

theorem isDigit_digitUnit {d : Nat} (h : d < 10) : isDigit (digitUnit d) = true := by
  simp only [isDigit, digitUnit_toNat h, decide_eq_true_eq]
  omega

theorem digitsValue_append (s : JsString) (u : UInt16) :
    digitsValue (s ++ [u]) = digitsValue s * 10 + (u.toNat - 48) := by
  simp [digitsValue]

theorem digitsValue_reverse_map {ds : List Nat} (h : ∀ d ∈ ds, d < 10) :
    digitsValue ((ds.map digitUnit).reverse) = Nat.ofDigits 10 ds := by
  induction ds with
  | nil => rfl
  | cons d ds ih =>
      have hd : d < 10 := h d List.mem_cons_self
      have rest := ih fun e he => h e (List.mem_cons_of_mem _ he)
      rw [List.map_cons, List.reverse_cons, digitsValue_append, rest, digitUnit_toNat hd,
        Nat.ofDigits_cons]
      omega

/-- Printing a nonnegative integer and reading its digits gives it back. -/
@[simp] theorem digitsValue_decimal (n : Nat) : digitsValue (decimal n) = n := by
  unfold decimal
  split
  · subst n; rfl
  · rw [digitsValue_reverse_map fun d hd => Nat.digits_lt_base (by decide) hd, Nat.ofDigits_digits]

theorem decimal_injective : Function.Injective decimal :=
  Function.LeftInverse.injective digitsValue_decimal

theorem decimal_all_digits (n : Nat) : ∀ u ∈ decimal n, isDigit u = true := by
  intro u hu
  unfold decimal at hu
  split at hu
  · simp only [List.mem_singleton] at hu
    subst u
    decide
  · simp only [List.mem_reverse, List.mem_map] at hu
    obtain ⟨d, hd, rfl⟩ := hu
    exact isDigit_digitUnit (Nat.digits_lt_base (by decide) hd)

theorem decimal_ne_nil (n : Nat) : decimal n ≠ [] := by
  unfold decimal
  split
  · exact List.cons_ne_nil _ _
  · simp only [ne_eq, List.reverse_eq_nil_iff, List.map_eq_nil_iff]
    exact Nat.digits_ne_nil_iff_ne_zero.mpr ‹_›

end PortableCodex.Js
