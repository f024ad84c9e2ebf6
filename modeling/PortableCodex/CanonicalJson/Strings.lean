import PortableCodex.ProviderState.CanonicalLaws

/-!
The length of the text of a string, unit by unit.
-/

namespace PortableCodex.CanonicalJson

open Js
open ProviderState (byteLength byteLength_ascii)

/-- The bytes of a unit that does not begin a surrogate pair, inside the text of a string. -/
def unitLength (u : UInt16) : Nat :=
  if u = 0x22 ∨ u = 0x5C then 2
  else if u ≤ 0x1F then if u = 0x08 ∨ u = 0x09 ∨ u = 0x0A ∨ u = 0x0C ∨ u = 0x0D then 2 else 6
  else if u ≤ 0x7F then 1
  else if u ≤ 0x7FF then 2
  else 3

theorem byteLength_ascii_eq {s : JsString} (ascii : ∀ u ∈ s, u.toNat < 0x80) : byteLength s = s.length := by
  induction s with
  | nil => rfl
  | cons u s ih =>
    obtain ⟨first, rest⟩ := List.forall_mem_cons.mp ascii
    rw [byteLength_ascii first, ih rest, List.length_cons, Nat.add_comm]

theorem unicodeEscape_ascii (u : UInt16) : ∀ v ∈ unicodeEscape u, v.toNat < 0x80 := by
  intro v inside
  have bound := u.toNat_lt
  rcases List.mem_append.mp inside with escape | digit
  · exact (by decide : ∀ v ∈ js "\\u", v.toNat < 0x80) v escape
  · simp only [List.mem_cons, List.not_mem_nil, or_false] at digit
    rcases digit with rfl | rfl | rfl | rfl <;> exact hexUnit_ascii (by omega)

theorem byteLength_quoteUnit {u : UInt16} (high : isHighSurrogate u = false) (low : isLowSurrogate u = false) :
    byteLength (quoteUnit u) = unitLength u := by
  by_cases escaped : u = 8 ∨ u = 9 ∨ u = 10 ∨ u = 12 ∨ u = 13 ∨ u = 34 ∨ u = 92
  · rcases escaped with rfl | rfl | rfl | rfl | rfl | rfl | rfl <;> decide
  · simp only [not_or] at escaped
    obtain ⟨backspace, tab, feed, form, carriage, mark, backslash⟩ := escaped
    unfold quoteUnit unitLength
    rw [if_neg backspace, if_neg tab, if_neg feed, if_neg form, if_neg carriage, if_neg mark, if_neg backslash,
      high, low, Bool.or_false, Bool.or_false]
    have quoted : ¬ (u = 34 ∨ u = 92) := by tauto
    have short : ¬ (u = 8 ∨ u = 9 ∨ u = 10 ∨ u = 12 ∨ u = 13) := by tauto
    by_cases control : u < 32
    · have small : u ≤ 0x1F := by
        rw [UInt16.lt_iff_toNat_lt] at control
        rw [UInt16.le_iff_toNat_le]
        exact Nat.le_of_lt_succ control
      rw [decide_eq_true control, if_pos rfl, if_neg quoted, if_pos small, if_neg short,
        byteLength_ascii_eq (unicodeEscape_ascii u)]
      rfl
    · have large : ¬ u ≤ 0x1F := by
        rw [UInt16.lt_iff_toNat_lt] at control
        rw [UInt16.le_iff_toNat_le]
        exact fun small => control (Nat.lt_succ_of_le small)
      rw [decide_eq_false control, if_neg Bool.false_ne_true, if_neg quoted, if_neg large, byteLength,
        encodeUtf8]
      simp only [UInt16.le_iff_toNat_le]
      show (encodeUnit u).length = if u.toNat ≤ 127 then 1 else if u.toNat ≤ 2047 then 2 else 3
      unfold encodeUnit
      by_cases one : u.toNat < 0x80
      · rw [if_pos one, if_pos (Nat.le_of_lt_succ one)]
        rfl
      · rw [if_neg one, if_neg fun small => one (Nat.lt_succ_of_le small)]
        by_cases two : u.toNat < 0x800
        · rw [if_pos two, if_pos (Nat.le_of_lt_succ two)]
          rfl
        · rw [if_neg two, if_neg fun small => two (Nat.lt_succ_of_le small)]
          split
          · rfl
          · rfl

/-- A text without unpaired surrogates does not begin with the end of a pair. -/
theorem wellFormed_head {s : JsString} (wellFormed : WellFormed s) : ∀ u ∈ s.head?, isLowSurrogate u = false := by
  intro u head
  cases s with
  | nil => cases head
  | cons v rest =>
    obtain rfl := Option.some.inj head
    cases rest with
    | nil => exact wellFormed.2
    | cons w rest =>
      rw [WellFormed] at wellFormed
      split at wellFormed
      · rename_i pair
        have high := (Bool.and_eq_true_iff.mp pair).1
        simp only [isHighSurrogate, isLowSurrogate, decide_eq_true_eq, decide_eq_false_iff_not] at high ⊢
        omega
      · exact wellFormed.1.2

theorem byteLength_pair {u v : UInt16} (high : isHighSurrogate u = true) (low : isLowSurrogate v = true)
    (rest : JsString) : byteLength (u :: v :: rest) = 4 + byteLength rest := by
  unfold byteLength
  rw [encodeUtf8, high, low, Bool.and_self, if_pos rfl, List.length_append]
  rfl

end PortableCodex.CanonicalJson
