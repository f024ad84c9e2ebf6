import Mathlib.Data.List.Nodup
import Mathlib.Data.List.Perm.Basic
import Mathlib.Data.List.Perm.Lattice
import Mathlib.Data.List.Lattice
import PortableCodex.Js.Text

/-!
The ECMAScript `Map`: entries in insertion order, no key twice.

A map is used through `get?`, which `mem_entries` ties to the entries, and `get?_set`. Two maps with
the same lookups have the same entries up to their order (`entries_perm`), which is all that a
rewritten map keeps of the one it was written from.
-/

open scoped List

namespace PortableCodex.Js

/-- A map: its entries in insertion order. -/
structure JsMap (K V : Type) where
  entries : List (K × V)
  nodup : (entries.map Prod.fst).Nodup

namespace JsMap

variable {K V : Type}

def empty : JsMap K V := ⟨[], List.nodup_nil⟩

def keys (m : JsMap K V) : List K := m.entries.map Prod.fst

/-- The values in the order `Map.prototype.forEach` visits them. -/
def values (m : JsMap K V) : List V := m.entries.map Prod.snd

def size (m : JsMap K V) : Nat := m.entries.length

variable [DecidableEq K]

def get? (m : JsMap K V) (key : K) : Option V := (m.entries.find? fun e => e.1 = key).map Prod.snd

def has (m : JsMap K V) (key : K) : Bool := (m.get? key).isSome

/-- The entries after a value is stored: in place of the old one, or at the end. -/
def setEntries (entries : List (K × V)) (key : K) (value : V) : List (K × V) :=
  if key ∈ entries.map Prod.fst then entries.map fun e => if e.1 = key then (key, value) else e
  else entries ++ [(key, value)]

theorem setEntries_keys (entries : List (K × V)) (key : K) (value : V) :
    (setEntries entries key value).map Prod.fst =
      if key ∈ entries.map Prod.fst then entries.map Prod.fst else entries.map Prod.fst ++ [key] := by
  unfold setEntries
  split
  · rw [List.map_map]
    refine List.map_congr_left fun e _ => ?_
    simp only [Function.comp_apply]
    split
    · rename_i same
      exact same.symm
    · rfl
  · rw [List.map_append]
    rfl

def set (m : JsMap K V) (key : K) (value : V) : JsMap K V where
  entries := setEntries m.entries key value
  nodup := by
    rw [setEntries_keys]
    split
    · exact m.nodup
    · rename_i fresh
      exact List.nodup_append.mpr ⟨m.nodup, List.nodup_singleton key, by
        rintro a inside b added rfl
        exact fresh (List.mem_singleton.mp added ▸ inside)⟩

def delete (m : JsMap K V) (key : K) : JsMap K V where
  entries := m.entries.filter fun e => e.1 ≠ key
  nodup := List.Nodup.sublist (List.filter_sublist.map _) m.nodup

variable {m n : JsMap K V} {key : K} {value : V}

theorem mem_entries : (key, value) ∈ m.entries ↔ m.get? key = some value := by
  unfold get?
  constructor
  · intro member
    cases found : m.entries.find? fun e => e.1 = key with
    | none =>
        exact absurd (decide_eq_true rfl) (List.find?_eq_none.mp found _ member)
    | some e =>
        have key_eq : e.1 = key := by simpa using List.find?_some found
        have same : e = (key, value) :=
          List.inj_on_of_nodup_map m.nodup (List.mem_of_find?_eq_some found) member key_eq
        rw [same]
        rfl
  · intro found
    obtain ⟨e, inside, rfl⟩ := Option.map_eq_some_iff.mp found
    have key_eq : e.1 = key := by simpa using List.find?_some inside
    rw [← key_eq]
    exact List.mem_of_find?_eq_some inside

theorem mem_keys : key ∈ m.keys ↔ ∃ value, m.get? key = some value := by
  simp only [keys, List.mem_map, Prod.exists, mem_entries]
  constructor
  · rintro ⟨k, v, found, rfl⟩
    exact ⟨v, found⟩
  · rintro ⟨v, found⟩
    exact ⟨key, v, found, rfl⟩

theorem mem_values : value ∈ m.values ↔ ∃ key, m.get? key = some value := by
  simp only [values, List.mem_map, Prod.exists, mem_entries]
  constructor
  · rintro ⟨k, v, found, rfl⟩
    exact ⟨k, found⟩
  · rintro ⟨k, found⟩
    exact ⟨k, value, found, rfl⟩

theorem has_eq_false : m.has key = false ↔ m.get? key = none := by
  rw [has, Option.isSome_eq_false_iff, Option.isNone_iff_eq_none]

@[simp] theorem get?_empty : (empty : JsMap K V).get? key = none := rfl

theorem get?_set (k : K) : (m.set key value).get? k = if k = key then some value else m.get? k := by
  refine Option.ext fun v => ?_
  rw [← mem_entries]
  show (k, v) ∈ setEntries m.entries key value ↔ _
  by_cases present : key ∈ m.entries.map Prod.fst
  · rw [setEntries, if_pos present, List.mem_map]
    constructor
    · rintro ⟨e, inside, form⟩
      split at form
      · cases form
        rw [if_pos rfl]
      · rename_i other
        subst form
        rw [if_neg other]
        exact mem_entries.mp inside
    · intro found
      split at found
      · rename_i same
        obtain rfl := Option.some.inj found
        obtain ⟨e, inside, rfl⟩ := List.mem_map.mp present
        exact ⟨e, inside, by rw [if_pos rfl, same]⟩
      · rename_i other
        exact ⟨(k, v), mem_entries.mpr found, by rw [if_neg other]⟩
  · rw [setEntries, if_neg present, List.mem_append, List.mem_singleton, Prod.mk.injEq]
    constructor
    · rintro (inside | ⟨rfl, rfl⟩)
      · have other : k ≠ key := fun same => present (List.mem_map.mpr ⟨_, inside, same⟩)
        rw [if_neg other]
        exact mem_entries.mp inside
      · rw [if_pos rfl]
    · intro found
      split at found
      · rename_i same
        exact .inr ⟨same, (Option.some.inj found).symm⟩
      · exact .inl (mem_entries.mpr found)

@[simp] theorem get?_set_self : (m.set key value).get? key = some value := by
  rw [get?_set, if_pos rfl]

theorem get?_set_of_ne {k : K} (other : k ≠ key) : (m.set key value).get? k = m.get? k := by
  rw [get?_set, if_neg other]

theorem get?_delete (k : K) : (m.delete key).get? k = if k = key then none else m.get? k := by
  refine Option.ext fun v => ?_
  rw [← mem_entries]
  show (k, v) ∈ m.entries.filter _ ↔ _
  rw [List.mem_filter, decide_eq_true_iff, mem_entries]
  by_cases same : k = key
  · rw [if_pos same]
    exact ⟨fun ⟨_, other⟩ => absurd same other, nofun⟩
  · rw [if_neg same]
    exact and_iff_left same

/-- A new key is stored at the end. -/
theorem set_entries_of_fresh (fresh : m.get? key = none) :
    (m.set key value).entries = m.entries ++ [(key, value)] := by
  refine if_neg fun inside => ?_
  obtain ⟨v, found⟩ := mem_keys.mp inside
  rw [fresh] at found
  cases found

omit [DecidableEq K] in
theorem nodup_entries (m : JsMap K V) : m.entries.Nodup := List.Nodup.of_map _ m.nodup

/-- Maps with the same lookups have the same entries, in some order. -/
theorem entries_perm (same : ∀ key, m.get? key = n.get? key) : m.entries ~ n.entries := by
  refine (List.perm_ext_iff_of_nodup m.nodup_entries n.nodup_entries).mpr ?_
  rintro ⟨key, value⟩
  rw [mem_entries, mem_entries, same]

/-- The other entries of a map that holds a value. -/
theorem entries_perm_delete (found : m.get? key = some value) :
    m.entries ~ (key, value) :: (m.delete key).entries := by
  have fresh : (key, value) ∉ (m.delete key).entries := by
    rw [mem_entries, get?_delete, if_pos rfl]
    exact nofun
  refine (List.perm_ext_iff_of_nodup m.nodup_entries (List.nodup_cons.mpr ⟨fresh, nodup_entries _⟩)).mpr ?_
  rintro ⟨k, v⟩
  rw [List.mem_cons, mem_entries, mem_entries, get?_delete, Prod.mk.injEq]
  by_cases same : k = key
  · rw [if_pos same, same, found, Option.some.injEq]
    exact ⟨fun eq => .inl ⟨rfl, eq.symm⟩, fun h => h.elim (fun h => h.2.symm) nofun⟩
  · rw [if_neg same]
    exact ⟨.inr, fun h => h.elim (fun h => absurd h.1 same) id⟩

theorem delete_entries_of_fresh (fresh : m.get? key = none) : (m.delete key).entries = m.entries := by
  refine List.filter_eq_self.mpr fun e member => decide_eq_true fun same => ?_
  have found := mem_entries.mp (show (e.1, e.2) ∈ m.entries from member)
  rw [same, fresh] at found
  cases found

/-- The entries of a map after a value was stored, up to their order. -/
theorem set_entries_perm : (m.set key value).entries ~ (key, value) :: (m.delete key).entries := by
  refine (entries_perm_delete get?_set_self).trans (List.Perm.cons _ (entries_perm fun k => ?_))
  rw [get?_delete, get?_delete, get?_set]
  split <;> rfl

theorem size_eq (same : ∀ key, m.get? key = n.get? key) : m.size = n.size :=
  (entries_perm same).length_eq

/-- A map that holds all entries of another one and no more has its lookups. -/
theorem get?_eq_of_entries (inside : ∀ e ∈ m.entries, n.get? e.1 = some e.2) (size : n.size = m.size)
    (key : K) : n.get? key = m.get? key := by
  have subset : m.entries ⊆ n.entries := fun e member => mem_entries.mpr (inside e member)
  have perm : m.entries ~ n.entries :=
    (List.subperm_of_subset m.nodup_entries subset).perm_of_length_le size.le
  refine Option.ext fun value => ?_
  rw [← mem_entries, ← mem_entries, perm.mem_iff]

/-- Values with new and distinct keys are stored behind the entries in their order. -/
theorem foldl_set_entries (id : V → K) (items : List V) (nodup : (items.map id).Nodup)
    (fresh : ∀ v ∈ items, m.get? (id v) = none) :
    (items.foldl (fun m v => m.set (id v) v) m).entries = m.entries ++ items.map fun v => (id v, v) := by
  induction items generalizing m with
  | nil => exact (List.append_nil _).symm
  | cons v items ih =>
      obtain ⟨first, rest⟩ := List.nodup_cons.mp nodup
      rw [List.foldl_cons, ih rest, set_entries_of_fresh (fresh v List.mem_cons_self), List.append_assoc]
      · rfl
      · intro w member
        have other : id w ≠ id v := fun same => first (same ▸ List.mem_map_of_mem member)
        rw [get?_set_of_ne other]
        exact fresh w (List.mem_cons_of_mem _ member)

end JsMap

end PortableCodex.Js
