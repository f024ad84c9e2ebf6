import Mathlib.Data.List.Basic
import Mathlib.Data.Nat.Basic

/-!
Reading a list in pages, from a cursor that every page moves on.

A reader of pages is exact when its page is the first of what remains beyond the cursor, and the cursor it
returns leaves the others (`ExactReader`). Following such a reader ends, and the pages together are what remained
(`ExactReader.exists_pages`).
-/

namespace PortableCodex.Paging

/-- A page of records, with the cursor of the next page. -/
structure Page (Id R : Type*) where
  nextAfterId : Option Id
  records : List R
deriving DecidableEq

/-- Read pages until one has no next cursor. There is no result when the steps run out before that. -/
def follow {Id R : Type*} (readPage : Option Id → Page Id R) : Nat → Option Id → Option (List (Page Id R))
  | 0, _ => none
  | steps + 1, afterId =>
      match (readPage afterId).nextAfterId with
      | none => some [readPage afterId]
      | some next => (follow readPage steps (some next)).map (readPage afterId :: ·)

section Exact

variable {Id R : Type*}

/-- The pages of a reader: at most `limit` of the records that remain beyond a cursor. -/
structure ExactReader (limit : Nat) (remaining : Option Id → List R) (readPage : Option Id → Page Id R) :
    Prop where
  records : ∀ afterId, (readPage afterId).records = (remaining afterId).take limit
  ends : ∀ afterId, (readPage afterId).nextAfterId = none ↔ (remaining afterId).drop limit = []
  continues : ∀ afterId next, (readPage afterId).nextAfterId = some next →
    remaining (some next) = (remaining afterId).drop limit

variable {limit : Nat} {remaining : Option Id → List R} {readPage : Option Id → Page Id R}

namespace ExactReader

theorem length_le (exact : ExactReader limit remaining readPage) (afterId : Option Id) :
    (readPage afterId).records.length ≤ limit := by
  rw [exact.records]
  exact List.length_take_le _ _

/-- A page that is not the last one is full. -/
theorem length_eq (exact : ExactReader limit remaining readPage) {afterId : Option Id} {next : Id}
    (more : (readPage afterId).nextAfterId = some next) : (readPage afterId).records.length = limit := by
  have left : (remaining afterId).drop limit ≠ [] := by
    intro nothing
    have last := (exact.ends afterId).mpr nothing
    rw [more] at last
    cases last
  rw [exact.records, List.length_take]
  have beyond : limit < (remaining afterId).length := by
    by_contra short
    exact left (List.drop_eq_nil_of_le (not_lt.mp short))
  omega

/-- A page and what remains after it are what remained. -/
theorem records_append (exact : ExactReader limit remaining readPage) {afterId : Option Id} {next : Id}
    (more : (readPage afterId).nextAfterId = some next) :
    (readPage afterId).records ++ remaining (some next) = remaining afterId := by
  rw [exact.records, exact.continues afterId next more, List.take_append_drop]

/-- The last page is all that remained. -/
theorem records_last (exact : ExactReader limit remaining readPage) {afterId : Option Id}
    (last : (readPage afterId).nextAfterId = none) : (readPage afterId).records = remaining afterId := by
  have nothing := (exact.ends afterId).mp last
  calc (readPage afterId).records
      = (remaining afterId).take limit ++ (remaining afterId).drop limit := by
        rw [exact.records, nothing, List.append_nil]
    _ = remaining afterId := List.take_append_drop _ _

/-- Every page takes records off, so following the pages ends; together they are what remained. -/
theorem exists_pages (exact : ExactReader limit remaining readPage) (positive : 0 < limit) (afterId : Option Id) :
    ∃ pages, (∀ steps, pages.length ≤ steps → follow readPage steps afterId = some pages) ∧
      pages.flatMap (·.records) = remaining afterId ∧
      pages.length ≤ (remaining afterId).length / limit + 1 ∧
      ∀ page ∈ pages, page.records.length ≤ limit := by
  induction total : (remaining afterId).length using Nat.strong_induction_on generalizing afterId with
  | _ total ih =>
      subst total
      cases more : (readPage afterId).nextAfterId with
      | none =>
          refine ⟨[readPage afterId], ?_, ?_, Nat.le_add_left _ _, ?_⟩
          · intro steps enough
            obtain ⟨steps, rfl⟩ := Nat.exists_eq_succ_of_ne_zero (Nat.ne_of_gt enough)
            simp [follow, more]
          · simp [exact.records_last more]
          · intro page member
            rw [List.mem_singleton] at member
            subst member
            exact exact.length_le afterId
      | some next =>
          have full := exact.length_eq more
          have whole := congrArg List.length (exact.records_append more)
          rw [List.length_append, full] at whole
          obtain ⟨pages, reads, records, count, short⟩ := ih _ (by omega) (some next) rfl
          refine ⟨readPage afterId :: pages, ?_, ?_, ?_, ?_⟩
          · intro steps enough
            rw [List.length_cons] at enough
            obtain ⟨steps, rfl⟩ := Nat.exists_eq_succ_of_ne_zero (Nat.ne_of_gt (Nat.zero_lt_of_lt enough))
            have later := reads steps (Nat.le_of_succ_le_succ enough)
            simp [follow, more, later]
          · rw [List.flatMap_cons, records, exact.records_append more]
          · have quotient : (remaining afterId).length / limit = (remaining (some next)).length / limit + 1 := by
              rw [← whole, Nat.add_div_left _ positive]
            rw [List.length_cons, quotient]
            exact Nat.add_le_add_right count 1
          · intro page member
            rcases List.mem_cons.mp member with first | later
            · subst first
              exact exact.length_le afterId
            · exact short page later

end ExactReader

end Exact

end PortableCodex.Paging
