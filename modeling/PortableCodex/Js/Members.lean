import Mathlib.Data.List.Sort
import PortableCodex.Js.Json

/-!
Member lists: sorting by key, own-property order and lookup.

`sortByKey` is what `Reflect.ownKeys(value)` followed by `Array.prototype.sort` visits. A member
list without repeated keys, its own-property order and its sorted order are permutations of one
another, so lookups agree (`getMember_perm`) and the sorted order is unique
(`sortByKey_eq_of_perm`).
-/

open scoped List

namespace PortableCodex.Js

theorem JsValue.memberInduction {P : JsValue → Prop} (null : P .null) (bool : ∀ b, P (.bool b))
    (number : ∀ n, P (.number n)) (string : ∀ s, P (.string s))
    (array : ∀ items, (∀ v ∈ items, P v) → P (.array items))
    (object : ∀ members, (∀ m ∈ members, P m.2) → P (.object members)) (v : JsValue) : P v :=
  JsValue.rec (motive_1 := P) (motive_2 := fun vs => ∀ v ∈ vs, P v)
    (motive_3 := fun ms => ∀ m ∈ ms, P m.2) (motive_4 := fun m => P m.2)
    null bool number string array object
    (by rintro _ ⟨⟩) (fun _ _ head tail => List.forall_mem_cons.mpr ⟨head, tail⟩)
    (by rintro _ ⟨⟩) (fun _ _ head tail => List.forall_mem_cons.mpr ⟨head, tail⟩)
    (fun _ _ value => value) v

theorem stringifyMembers_eq_map (ms : List (JsString × JsValue)) :
    stringifyMembers ms = ms.map fun m => quote m.1 ++ 58 :: stringify m.2 := by
  induction ms with
  | nil => rfl
  | cons m ms ih => rw [stringifyMembers, ih]; rfl

theorem stringifyItems_eq_map (vs : List JsValue) : stringifyItems vs = vs.map stringify := by
  induction vs with
  | nil => rfl
  | cons v vs ih => rw [stringifyItems, ih]; rfl

section

variable {α β : Type}

/-- Apply a function to the values of a member list. -/
def mapValues (f : α → β) (ms : List (JsString × α)) : List (JsString × β) := ms.map fun m => (m.1, f m.2)

@[simp] theorem mapValues_keys (f : α → β) (ms : List (JsString × α)) :
    (mapValues f ms).map Prod.fst = ms.map Prod.fst := by
  simp [mapValues]

/-- The members in the order of `Array.prototype.sort` on their keys. -/
def sortByKey (ms : List (JsString × α)) : List (JsString × α) :=
  ms.insertionSort fun a b => a.1 ≤ b.1

end

theorem settleMembers_eq_mapValues (ms : List (JsString × JsValue)) :
    settleMembers ms = mapValues settle ms := by
  induction ms with
  | nil => rfl
  | cons m ms ih => rw [settleMembers, ih]; rfl

theorem settleItems_eq_map (vs : List JsValue) : settleItems vs = vs.map settle := by
  induction vs with
  | nil => rfl
  | cons v vs ih => rw [settleItems, ih]; rfl

section Members

variable {α β : Type} {ms es : List (JsString × α)}

theorem sortByKey_perm (ms : List (JsString × α)) : sortByKey ms ~ ms := List.perm_insertionSort _ ms

theorem mapValues_sortByKey (f : α → β) (ms : List (JsString × α)) :
    mapValues f (sortByKey ms) = sortByKey (mapValues f ms) :=
  List.map_insertionSort _ _ _ _ fun _ _ _ _ => Iff.rfl

/-- Keys in strictly ascending order. -/
def SortedKeys (ms : List (JsString × α)) : Prop := ms.Pairwise fun a b => a.1 < b.1

theorem SortedKeys.nodup (h : SortedKeys ms) : (ms.map Prod.fst).Nodup :=
  List.pairwise_map.mpr (h.imp fun less => ne_of_lt less)

theorem sortByKey_sorted (nodup : (ms.map Prod.fst).Nodup) : SortedKeys (sortByKey ms) := by
  have ascending : (sortByKey ms).Pairwise fun a b => a.1 ≤ b.1 := List.pairwise_insertionSort _ ms
  have distinct : (sortByKey ms).Pairwise fun a b => a.1 ≠ b.1 :=
    List.pairwise_map.mp (((sortByKey_perm ms).map Prod.fst).nodup_iff.mpr nodup)
  exact ascending.imp₂ (fun _ _ le ne => lt_of_le_of_ne le ne) distinct

theorem sortByKey_eq_of_perm (sorted : SortedKeys es) (perm : ms ~ es) : sortByKey ms = es := by
  have nodup : (ms.map Prod.fst).Nodup := (perm.map Prod.fst).nodup_iff.mpr sorted.nodup
  have antisymm (a b : JsString × α) (_ : a ∈ sortByKey ms) (_ : b ∈ es) (less : a.1 < b.1)
      (greater : b.1 < a.1) : a = b := absurd less (lt_asymm greater)
  exact ((sortByKey_perm ms).trans perm).eq_of_pairwise antisymm (sortByKey_sorted nodup) sorted

/-! ### Own-property order -/

theorem insertMember_perm (ms : List (JsString × α)) (key : JsString) (value : α) :
    insertMember ms key value ~ (key, value) :: ms := by
  unfold insertMember
  split
  · refine (List.perm_middle).trans (List.Perm.cons _ ?_)
    rw [List.takeWhile_append_dropWhile]
  · exact List.perm_append_singleton _ _

theorem foldl_setMember_perm (es ms : List (JsString × α)) (nodup : ((ms ++ es).map Prod.fst).Nodup) :
    es.foldl (fun members m => setMember members m.1 m.2) ms ~ ms ++ es := by
  induction es generalizing ms with
  | nil => rw [List.append_nil]; exact List.Perm.refl _
  | cons m es ih =>
      have fresh : m.1 ∉ ms.map Prod.fst := by
        rw [List.map_append, List.map_cons, List.nodup_append] at nodup
        exact fun member => nodup.2.2 _ member _ List.mem_cons_self rfl
      have perm : insertMember ms m.1 m.2 ++ es ~ ms ++ m :: es :=
        ((insertMember_perm ms m.1 m.2).append_right es).trans List.perm_middle.symm
      rw [List.foldl_cons, setMember, if_neg fresh]
      exact (ih _ ((perm.map Prod.fst).nodup_iff.mpr nodup)).trans perm

/-- Defining distinct properties gives an object with exactly these. -/
theorem ofEntries_perm (nodup : (es.map Prod.fst).Nodup) : ofEntries es ~ es :=
  foldl_setMember_perm es [] (by simpa using nodup)

theorem ofEntries_nodup (nodup : (es.map Prod.fst).Nodup) : ((ofEntries es).map Prod.fst).Nodup :=
  ((ofEntries_perm nodup).map Prod.fst).nodup_iff.mpr nodup

theorem sortByKey_ofEntries (sorted : SortedKeys es) : sortByKey (ofEntries es) = es :=
  sortByKey_eq_of_perm sorted (ofEntries_perm sorted.nodup)

/-! ### Lookup -/

theorem getMember_eq_some_iff (nodup : (ms.map Prod.fst).Nodup) {key : JsString} {value : α} :
    getMember ms key = some value ↔ (key, value) ∈ ms := by
  unfold getMember
  induction ms with
  | nil => simp
  | cons m ms ih =>
      obtain ⟨fresh, nodup⟩ := List.nodup_cons.mp nodup
      by_cases same : m.1 = key
      · subst key
        have other : (m.1, value) ∉ ms := fun member => fresh (List.mem_map.mpr ⟨_, member, rfl⟩)
        simp [other, Prod.ext_iff, eq_comm]
      · have differ : (key, value) ≠ m := by rintro rfl; exact same rfl
        simp only [List.find?_cons, same, decide_false, List.mem_cons, differ, false_or]
        exact ih nodup

theorem getMember_perm (nodup : (ms.map Prod.fst).Nodup) (perm : ms ~ es) (key : JsString) :
    getMember ms key = getMember es key := by
  have nodup' : (es.map Prod.fst).Nodup := (perm.map Prod.fst).nodup_iff.mp nodup
  refine Option.ext fun value => ?_
  rw [getMember_eq_some_iff nodup, getMember_eq_some_iff nodup', perm.mem_iff]

theorem getMember_mapValues (f : α → β) (ms : List (JsString × α)) (key : JsString) :
    getMember (mapValues f ms) key = (getMember ms key).map f := by
  simp only [getMember, mapValues, List.find?_map, Option.map_map]
  rfl

end Members

end PortableCodex.Js
