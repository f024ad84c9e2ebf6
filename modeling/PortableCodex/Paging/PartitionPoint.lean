import Mathlib.Data.List.Basic
import Mathlib.Order.Basic
import Mathlib.Data.Nat.Basic

/-!
The binary search for the first record that a test rejects.

The test holds of a beginning of the records and of none after it (`Partitioned`). The search returns where that
beginning ends (`partitionPoint_splits`), so what follows the place is what the test rejects (`SplitsAt.drop_eq`).
-/

namespace PortableCodex.Paging

section Search

variable {R : Type*} (before : R → Bool) (records : List R)

/-- The end of the records that the test accepts, between two bounds. -/
def partitionPoint (lower upper : Nat) (inside : upper ≤ records.length) : Nat :=
  if apart : lower < upper then
    have within : lower + (upper - lower) / 2 < records.length := by omega
    if before records[lower + (upper - lower) / 2] then
      partitionPoint (lower + (upper - lower) / 2 + 1) upper inside
    else partitionPoint lower (lower + (upper - lower) / 2) (by omega)
  else lower
termination_by upper - lower

/-- A record that the test accepts has only such records in front of it. -/
def Partitioned : Prop := records.Pairwise fun a b => before b = true → before a = true

/-- The test accepts what is in front of the place, and nothing from there on. -/
structure SplitsAt (place : Nat) : Prop where
  front : ∀ r ∈ records.take place, before r = true
  rest : ∀ r ∈ records.drop place, before r = false

end Search

variable {R : Type*} {before : R → Bool} {records : List R}

theorem Partitioned.before_of_le (partitioned : Partitioned before records) {i j : Nat} (le : i ≤ j)
    (within : j < records.length) (accepted : before records[j] = true) :
    before (records.get ⟨i, le.trans_lt within⟩) = true := by
  rcases le.eq_or_lt with same | less
  · subst same
    exact accepted
  · exact List.pairwise_iff_getElem.mp partitioned i j (less.trans within) within less accepted

/-- The bounds of the search: what is below `lower` is accepted, and what is not below `upper` is rejected. -/
structure Bounds (before : R → Bool) (records : List R) (lower upper : Nat) : Prop where
  ordered : lower ≤ upper
  below : ∀ i (within : i < records.length), i < lower → before records[i] = true
  above : ∀ i (within : i < records.length), upper ≤ i → before records[i] = false

/-- Bounds that meet are where the test changes. -/
theorem Bounds.splits {place : Nat} (bounds : Bounds before records place place) : SplitsAt before records place := by
  constructor
  · intro r member
    obtain ⟨i, within, rfl⟩ := List.mem_take_iff_getElem.mp member
    exact bounds.below i (by omega) (by omega)
  · intro r member
    obtain ⟨i, within, rfl⟩ := List.mem_drop_iff_getElem.mp member
    exact bounds.above (place + i) (by omega) (by omega)

/-- The search keeps its bounds until they meet. -/
theorem partitionPoint_bounds (partitioned : Partitioned before records) {lower upper : Nat}
    (inside : upper ≤ records.length) (bounds : Bounds before records lower upper) :
    Bounds before records (partitionPoint before records lower upper inside)
      (partitionPoint before records lower upper inside) := by
  fun_induction partitionPoint before records lower upper inside with
  | case1 lower upper inside apart within accepted ih =>
      apply ih
      refine ⟨by omega, ?_, bounds.above⟩
      intro i _ less
      exact partitioned.before_of_le (by omega) within accepted
  | case2 lower upper inside apart within rejected ih =>
      apply ih
      refine ⟨by omega, bounds.below, ?_⟩
      intro i inside_i le
      -- a record accepted from the middle on would have the middle accepted
      refine Bool.eq_false_iff.mpr fun accepted => rejected ?_
      exact partitioned.before_of_le le inside_i accepted
  | case3 lower upper inside closed =>
      have met : upper = lower := le_antisymm (not_lt.mp closed) bounds.ordered
      rwa [met] at bounds

/-- The search over all records finds where the test changes. -/
theorem partitionPoint_splits (partitioned : Partitioned before records) :
    SplitsAt before records (partitionPoint before records 0 records.length le_rfl) := by
  apply Bounds.splits
  apply partitionPoint_bounds partitioned
  refine ⟨Nat.zero_le _, ?_, ?_⟩
  · intro i _ less
    exact absurd less (Nat.not_lt_zero i)
  · intro i within le
    exact absurd within (not_lt.mpr le)

namespace SplitsAt

variable {place : Nat}

/-- What follows the place is what the test rejects. -/
theorem drop_eq (split : SplitsAt before records place) :
    records.drop place = records.filter fun r => !before r := by
  have front : (records.take place).filter (fun r => !before r) = [] := by
    apply List.filter_eq_nil_iff.mpr
    intro r member
    simp [split.front r member]
  have rest : (records.drop place).filter (fun r => !before r) = records.drop place := by
    apply List.filter_eq_self.mpr
    intro r member
    simp [split.rest r member]
  calc records.drop place
      = (records.take place).filter (fun r => !before r) ++ (records.drop place).filter (fun r => !before r) := by
        rw [front, rest, List.nil_append]
    _ = records.filter fun r => !before r := by rw [← List.filter_append, List.take_append_drop]

end SplitsAt

end PortableCodex.Paging
