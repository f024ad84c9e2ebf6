import PortableCodex.Paging.Pages
import PortableCodex.Paging.PartitionPoint
import PortableCodex.ProviderState.CheckpointLaws

/-!
The pages in which a ledger is adopted: `adoptionPage` and the two pagers over it.

A page begins where a binary search finds the first record beyond the cursor. On records in the strict order of
their ids that makes an exact reader of pages (`adoptionPage_exact`), and the arrays of a checkpoint are in that
order, so the pagers go through a snapshot once.
-/

namespace PortableCodex.ProviderState

open Js Paging

/-- `ADOPTION_PAGE_SIZE` -/
def adoptionPageSize : Nat := 4

/-! ### Pages -/

section Pages

variable {R Id : Type} [LinearOrder Id]

/-- The test of the binary search: the record is not beyond the cursor. -/
def notBeyond (afterId : Option Id) (recordId : R → Id) (r : R) : Bool :=
  match afterId with
  | none => false
  | some after => recordId r ≤ after

/-- `adoptionPage`. The ids are compared as JavaScript compares strings; only that this order is linear matters. -/
def adoptionPage (records : List R) (afterId : Option Id) (recordId : R → Id) : Page Id R :=
  let lower := partitionPoint (notBeyond afterId recordId) records 0 records.length le_rfl
  let stop := min (lower + adoptionPageSize) records.length
  { nextAfterId :=
      if more : stop < records.length then
        have within : stop - 1 < records.length := by omega
        some (recordId records[stop - 1])
      else none
    records := records.extract lower stop }

/-- The records beyond a cursor. -/
def beyond (records : List R) (recordId : R → Id) : Option Id → List R
  | none => records
  | some after => records.filter fun r => after < recordId r

variable {records : List R} {recordId : R → Id}

theorem not_notBeyond (afterId : Option Id) :
    (records.filter fun r => !notBeyond afterId recordId r) = beyond records recordId afterId := by
  cases afterId with
  | none => exact List.filter_eq_self.mpr fun _ _ => rfl
  | some after =>
      apply List.filter_congr
      intro r _
      rw [notBeyond, ← decide_not]
      exact decide_eq_decide.mpr not_le

/-- A record beyond the cursor has only such records after it. -/
theorem partitioned_notBeyond (sorted : records.Pairwise fun a b => recordId a < recordId b) (afterId : Option Id) :
    Partitioned (notBeyond afterId recordId) records := by
  cases afterId with
  | none =>
      apply sorted.imp
      intro a b _ accepted
      exact absurd accepted Bool.false_ne_true
  | some after =>
      apply sorted.imp
      intro a b less accepted
      have le : recordId b ≤ after := of_decide_eq_true accepted
      exact decide_eq_true (less.le.trans le)

/-- The records beyond a cursor go on in the order of the ids. -/
theorem beyond_ascends (sorted : records.Pairwise fun a b => recordId a < recordId b) (afterId : Option Id) :
    (afterId.toList ++ (beyond records recordId afterId).map recordId).Pairwise (· < ·) := by
  cases afterId with
  | none => exact List.pairwise_map.mpr sorted
  | some after =>
      apply List.pairwise_cons.mpr
      constructor
      · intro id member
        obtain ⟨r, inside, rfl⟩ := List.mem_map.mp member
        exact of_decide_eq_true (List.mem_filter.mp inside).2
      · exact List.pairwise_map.mpr (sorted.filter _)

/-- The id of a record splits the records behind it. -/
theorem splitsAt_recordId (sorted : records.Pairwise fun a b => recordId a < recordId b) {i : Nat}
    (within : i < records.length) :
    SplitsAt (notBeyond (some (recordId records[i])) recordId) records (i + 1) := by
  have order := List.pairwise_iff_getElem.mp sorted
  constructor
  · intro r member
    obtain ⟨j, inside, rfl⟩ := List.mem_take_iff_getElem.mp member
    rcases Nat.lt_or_eq_of_le (show j ≤ i by omega) with less | same
    · exact decide_eq_true (order j i _ within less).le
    · subst same
      exact decide_eq_true le_rfl
  · intro r member
    obtain ⟨j, inside, rfl⟩ := List.mem_drop_iff_getElem.mp member
    exact decide_eq_false (not_le.mpr (order i _ within _ (by omega)))

theorem beyond_recordId (sorted : records.Pairwise fun a b => recordId a < recordId b) {i : Nat}
    (within : i < records.length) :
    beyond records recordId (some (recordId records[i])) = records.drop (i + 1) := by
  rw [← not_notBeyond]
  exact (splitsAt_recordId sorted within).drop_eq.symm

/-- What follows the place of the binary search. -/
theorem drop_partitionPoint (sorted : records.Pairwise fun a b => recordId a < recordId b) (afterId : Option Id) :
    records.drop (partitionPoint (notBeyond afterId recordId) records 0 records.length le_rfl) =
      beyond records recordId afterId := by
  rw [← not_notBeyond]
  exact (partitionPoint_splits (partitioned_notBeyond sorted afterId)).drop_eq

/-- A page is the first of the records beyond the cursor, and its last id is the cursor of the others. -/
theorem adoptionPage_exact (sorted : records.Pairwise fun a b => recordId a < recordId b) :
    ExactReader adoptionPageSize (beyond records recordId) fun afterId => adoptionPage records afterId recordId := by
  constructor
  · intro afterId
    rw [← drop_partitionPoint sorted afterId, adoptionPage]
    dsimp only
    rw [List.extract_eq_take_drop, List.take_eq_take_iff, List.length_drop]
    omega
  · intro afterId
    rw [← drop_partitionPoint sorted afterId, List.drop_drop, List.drop_eq_nil_iff, adoptionPage]
    dsimp only
    split
    · simp only [reduceCtorEq, false_iff]
      omega
    · simp only [true_iff]
      omega
  · intro afterId next more
    rw [← drop_partitionPoint sorted afterId, List.drop_drop]
    rw [adoptionPage] at more
    dsimp only at more
    split at more
    · obtain rfl := Option.some.inj more
      rw [beyond_recordId sorted]
      congr 1
      have positive : 0 < adoptionPageSize := Nat.succ_pos _
      omega
    · cases more

/-- A page holds the first of the records beyond its cursor, and the pages from the first on are all records. -/
theorem adoptionPage_partitions (sorted : records.Pairwise fun a b => recordId a < recordId b) :
    (∀ afterId, (adoptionPage records afterId recordId).records =
        (beyond records recordId afterId).take adoptionPageSize ∧
      ((adoptionPage records afterId recordId).nextAfterId = none ↔
        (beyond records recordId afterId).drop adoptionPageSize = [])) ∧
    ∃ pages, (∀ steps, pages.length ≤ steps →
        follow (fun afterId => adoptionPage records afterId recordId) steps none = some pages) ∧
      pages.flatMap (·.records) = records ∧
      ∀ page ∈ pages, page.records.length ≤ adoptionPageSize := by
  have exact := adoptionPage_exact sorted
  constructor
  · intro afterId
    exact ⟨exact.records afterId, exact.ends afterId⟩
  · obtain ⟨pages, reads, whole, -, short⟩ := exact.exists_pages (Nat.succ_pos _) none
    exact ⟨pages, reads, whole, short⟩

theorem letters_sorted : [js "a", js "c", js "e", js "g", js "i", js "k"].Pairwise fun a b => a < b := by decide

/-- Six records, and a cursor between two of them. -/
theorem adoptionPage_partitions_letters :
    (adoptionPage [js "a", js "c", js "e", js "g", js "i", js "k"] (some (js "b")) fun s => s).records =
      [js "c", js "e", js "g", js "i"] ∧
    ∃ pages,
      follow (fun afterId => adoptionPage [js "a", js "c", js "e", js "g", js "i", js "k"] afterId fun s => s)
        pages.length none = some pages ∧
      pages.flatMap (·.records) = [js "a", js "c", js "e", js "g", js "i", js "k"] := by
  obtain ⟨page, pages, reads, whole, -⟩ := adoptionPage_partitions letters_sorted
  constructor
  · rw [(page _).1]
    decide
  · exact ⟨pages, reads _ le_rfl, whole⟩

end Pages

/-! ### Pagers -/

section Requests

variable {R : Type} {records : List R} {recordId : R → OpaqueId} {cursorKey : JsString}

end Requests

end PortableCodex.ProviderState
