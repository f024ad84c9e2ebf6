import Mathlib.Data.List.Perm.Basic
import PortableCodex.ProviderState.CanonicalLaws

/-!
Equality of JSON values.

`Same` is equality up to the order of members and the sign of zero. `reparse` puts a value into its normal
form, so two values are the same exactly when their normal forms are equal (`Same.reparse_eq`,
`same_of_reparse`), which is when the texts of the normal forms are (`stringify_reparse_inj`).
-/

namespace PortableCodex.CanonicalJson

open Js ProviderState

/-! ### Values -/

mutual

/-- A value of JSON: its numbers are finite and its objects have every key once. -/
def IsJson : JsValue → Prop
  | .number (.finite _ _) => True
  | .number _ => False
  | .array items => IsJsonItems items
  | .object members => (members.map Prod.fst).Nodup ∧ IsJsonMembers members
  | _ => True

def IsJsonItems : List JsValue → Prop
  | [] => True
  | v :: vs => IsJson v ∧ IsJsonItems vs

def IsJsonMembers : List (JsString × JsValue) → Prop
  | [] => True
  | (_, v) :: ms => IsJson v ∧ IsJsonMembers ms

end

theorem isJsonItems_iff (vs : List JsValue) : IsJsonItems vs ↔ ∀ v ∈ vs, IsJson v := by
  induction vs with
  | nil => exact ⟨fun _ _ never => (by cases never), fun _ => trivial⟩
  | cons v vs ih => rw [IsJsonItems, ih, List.forall_mem_cons]

theorem isJsonMembers_iff (ms : List (JsString × JsValue)) : IsJsonMembers ms ↔ ∀ m ∈ ms, IsJson m.2 := by
  induction ms with
  | nil => exact ⟨fun _ _ never => (by cases never), fun _ => trivial⟩
  | cons m ms ih => rw [IsJsonMembers, ih, List.forall_mem_cons]

theorem isJson_array {items : List JsValue} : IsJson (.array items) ↔ ∀ v ∈ items, IsJson v := by
  rw [IsJson, isJsonItems_iff]

theorem isJson_object {members : List (JsString × JsValue)} :
    IsJson (.object members) ↔ (members.map Prod.fst).Nodup ∧ ∀ m ∈ members, IsJson m.2 := by
  rw [IsJson, isJsonMembers_iff]

/-- Equality up to the order of members and the sign of zero. -/
inductive Same : JsValue → JsValue → Prop where
  | null : Same .null .null
  | bool (b : Bool) : Same (.bool b) (.bool b)
  | string (s : JsString) : Same (.string s) (.string s)
  | number {n m : JsNumber} : settleNumber n = settleNumber m → Same (.number n) (.number m)
  | array {vs ws : List JsValue} : List.Forall₂ Same vs ws → Same (.array vs) (.array ws)
  | object {ms middle ns : List (JsString × JsValue)} : ms.map Prod.fst = middle.map Prod.fst →
      List.Forall₂ Same (ms.map Prod.snd) (middle.map Prod.snd) → middle.Perm ns → Same (.object ms) (.object ns)

/-! ### Normal forms -/

theorem sortByKey_perm_eq {α : Type} {ms ns : List (JsString × α)} (perm : ms.Perm ns)
    (nodup : (ns.map Prod.fst).Nodup) : sortByKey ms = sortByKey ns :=
  sortByKey_eq_of_perm (sortByKey_sorted nodup) (perm.trans (sortByKey_perm ns).symm)

theorem members_ext {α β : Type} {ms ns : List (α × β)} (keys : ms.map Prod.fst = ns.map Prod.fst)
    (values : ms.map Prod.snd = ns.map Prod.snd) : ms = ns := by
  induction ms generalizing ns with
  | nil => exact (List.map_eq_nil_iff.mp keys.symm).symm
  | cons m ms ih =>
    cases ns with
    | nil => cases keys
    | cons n ns =>
      obtain ⟨key, keys⟩ := List.cons.inj keys
      obtain ⟨value, values⟩ := List.cons.inj values
      rw [Prod.ext key value, ih keys values]

theorem map_reparse_eq {vs ws : List JsValue} (all : List.Forall₂ Same vs ws) (json : ∀ v ∈ vs, IsJson v)
    (ih : ∀ v ∈ vs, ∀ w, Same v w → IsJson v → reparse v = reparse w) : vs.map reparse = ws.map reparse := by
  induction all with
  | nil => rfl
  | cons head _ more =>
    obtain ⟨first, rest⟩ := List.forall_mem_cons.mp json
    obtain ⟨here, later⟩ := List.forall_mem_cons.mp ih
    rw [List.map_cons, List.map_cons, here _ head first, more rest later]

theorem forall₂_of_map {vs ws : List JsValue} (left : ∀ v ∈ vs, IsJson v) (right : ∀ w ∈ ws, IsJson w)
    (ih : ∀ v ∈ vs, ∀ w, IsJson v → IsJson w → reparse v = reparse w → Same v w)
    (maps : vs.map reparse = ws.map reparse) : List.Forall₂ Same vs ws := by
  induction vs generalizing ws with
  | nil =>
    obtain rfl := List.map_eq_nil_iff.mp maps.symm
    exact .nil
  | cons v vs more =>
    cases ws with
    | nil => cases maps
    | cons w ws =>
      obtain ⟨head, tail⟩ := List.cons.inj maps
      obtain ⟨first, rest⟩ := List.forall_mem_cons.mp left
      obtain ⟨first', rest'⟩ := List.forall_mem_cons.mp right
      obtain ⟨here, later⟩ := List.forall_mem_cons.mp ih
      exact .cons (here w first first' head) (more rest rest' later tail)

theorem forall_values {ms : List (JsString × JsValue)} {P : JsValue → Prop} :
    (∀ v ∈ ms.map Prod.snd, P v) ↔ ∀ m ∈ ms, P m.2 := List.forall_mem_map

theorem mapValues_values {α β : Type} (f : α → β) (ms : List (JsString × α)) :
    (mapValues f ms).map Prod.snd = (ms.map Prod.snd).map f := by
  unfold mapValues
  rw [List.map_map, List.map_map]
  rfl

/-- The same values have one normal form. -/
theorem Same.reparse_eq {v w : JsValue} (same : Same v w) (json : IsJson v) : reparse v = reparse w := by
  induction v using JsValue.memberInduction generalizing w with
  | null =>
    cases same
    rfl
  | bool b =>
    cases same
    rfl
  | string s =>
    cases same
    rfl
  | number n =>
    cases same with
    | number settled => exact settled
  | array items ih =>
    cases same with
    | @array _ ws all =>
      have maps := map_reparse_eq all (isJson_array.mp json) fun v inside w same json => ih v inside same json
      rw [reparse_array, reparse_array, maps]
  | object members ih =>
    cases same with
    | @object _ middle ns keys all perm =>
      obtain ⟨nodup, json⟩ := isJson_object.mp json
      have values := map_reparse_eq all (forall_values.mpr json)
        (forall_values.mpr fun m inside w same json => ih m inside same json)
      have maps : mapValues reparse members = mapValues reparse middle := by
        apply members_ext
        · rw [mapValues_keys, mapValues_keys, keys]
        · rw [mapValues_values, mapValues_values, values]
      have distinct : ((mapValues reparse ns).map Prod.fst).Nodup := by
        rw [mapValues_keys, ← (perm.map Prod.fst).nodup_iff, ← keys]
        exact nodup
      have order : sortByKey (mapValues reparse middle) = sortByKey (mapValues reparse ns) :=
        sortByKey_perm_eq (perm.map _) distinct
      rw [reparse_object, reparse_object, maps, order]

/-- The members of a normal form. -/
theorem sorted_reparse {members : List (JsString × JsValue)} (nodup : (members.map Prod.fst).Nodup) :
    SortedKeys (sortByKey (mapValues reparse members)) := by
  apply sortByKey_sorted
  rw [mapValues_keys]
  exact nodup

/-- The members of a normal form are those of the value, each in its normal form. -/
theorem reparse_members_perm {members : List (JsString × JsValue)} (nodup : (members.map Prod.fst).Nodup) :
    (ofEntries (sortByKey (mapValues reparse members))).Perm (mapValues reparse members) :=
  (ofEntries_perm (sorted_reparse nodup).nodup).trans (sortByKey_perm _)

theorem reparse_reparse {v : JsValue} (json : IsJson v) : reparse (reparse v) = reparse v := by
  induction v using JsValue.memberInduction with
  | null => rfl
  | bool b => rfl
  | string s => rfl
  | number n =>
    cases n with
    | finite negative d =>
      rw [reparse_number, settleNumber, reparse_number, settleNumber, Bool.and_assoc, Bool.and_self]
    | nan => rfl
    | infinity negative => rfl
  | array items ih =>
    rw [isJson_array] at json
    rw [reparse_array, reparse_array, List.map_map]
    exact congrArg JsValue.array (List.map_congr_left fun v inside => ih v inside (json v inside))
  | object members ih =>
    obtain ⟨nodup, json⟩ := isJson_object.mp json
    have sorted := sorted_reparse nodup
    have settled : mapValues reparse (mapValues reparse members) = mapValues reparse members := by
      unfold mapValues
      rw [List.map_map]
      exact List.map_congr_left fun m inside => Prod.ext rfl (ih m inside (json m inside))
    have order := mapValues_sortByKey reparse (mapValues reparse members)
    rw [settled] at order
    rw [reparse_object, reparse_object, ← mapValues_sortByKey, sortByKey_ofEntries sorted, order]

/-- `{"b":[-0,"é"],"a":true}` -/
def unsortedObject : JsValue :=
  .object [(js "b", .array [.number (.finite true .zero), .string [0xE9]]), (js "a", .bool true)]

/-- `{"a":true,"b":[0,"é"]}` -/
def sortedObject : JsValue :=
  .object [(js "a", .bool true), (js "b", .array [.number (.finite false .zero), .string [0xE9]])]

example : reparse unsortedObject = sortedObject := by rfl

theorem isJson_reparse {v : JsValue} (json : IsJson v) : IsJson (reparse v) := by
  induction v using JsValue.memberInduction with
  | null => exact json
  | bool b => exact json
  | string s => exact json
  | number n =>
    cases n with
    | finite negative d => trivial
    | nan => cases json
    | infinity negative => cases json
  | array items ih =>
    rw [isJson_array] at json
    rw [reparse_array, isJson_array]
    intro v inside
    obtain ⟨u, there, rfl⟩ := List.mem_map.mp inside
    exact ih u there (json u there)
  | object members ih =>
    obtain ⟨nodup, json⟩ := isJson_object.mp json
    have perm := reparse_members_perm nodup
    rw [reparse_object, isJson_object]
    constructor
    · rw [(perm.map Prod.fst).nodup_iff, mapValues_keys]
      exact nodup
    · intro m inside
      obtain ⟨n, there, rfl⟩ := List.mem_map.mp (perm.mem_iff.mp inside)
      exact ih n there (json n there)

/-- Values with one normal form are the same. -/
theorem same_of_reparse {v w : JsValue} (left : IsJson v) (right : IsJson w) (equal : reparse v = reparse w) :
    Same v w := by
  induction v using JsValue.memberInduction generalizing w with
  | null =>
    cases w with
    | null => exact .null
    | number n => cases n <;> cases equal; cases right; cases right
    | bool b => cases equal
    | string s => cases equal
    | array items => rw [reparse_array] at equal; cases equal
    | object members => rw [reparse_object] at equal; cases equal
  | bool b =>
    cases w with
    | bool c =>
      cases equal
      exact .bool b
    | number n => cases n <;> cases equal
    | null => cases equal
    | string s => cases equal
    | array items => rw [reparse_array] at equal; cases equal
    | object members => rw [reparse_object] at equal; cases equal
  | string s =>
    cases w with
    | string t =>
      cases equal
      exact .string s
    | number n => cases n <;> cases equal
    | null => cases equal
    | bool b => cases equal
    | array items => rw [reparse_array] at equal; cases equal
    | object members => rw [reparse_object] at equal; cases equal
  | number n =>
    cases n with
    | nan => cases left
    | infinity negative => cases left
    | finite negative d =>
      cases w with
      | number m => exact .number equal
      | null => cases equal
      | bool b => cases equal
      | string s => cases equal
      | array items => rw [reparse_array] at equal; cases equal
      | object members => rw [reparse_object] at equal; cases equal
  | array items ih =>
    rw [reparse_array] at equal
    cases w with
    | array ws =>
      rw [reparse_array] at equal
      exact .array (forall₂_of_map (isJson_array.mp left) (isJson_array.mp right)
        (fun v inside w left right equal => ih v inside left right equal) (JsValue.array.inj equal))
    | number n => cases n <;> cases equal
    | null => cases equal
    | bool b => cases equal
    | string s => cases equal
    | object members => rw [reparse_object] at equal; cases equal
  | object members ih =>
    rw [reparse_object] at equal
    cases w with
    | object ns =>
      rw [reparse_object] at equal
      obtain ⟨nodup, json⟩ := isJson_object.mp left
      obtain ⟨nodup', json'⟩ := isJson_object.mp right
      have perm : (mapValues reparse members).Perm (mapValues reparse ns) := by
        have whole := reparse_members_perm nodup
        rw [JsValue.object.inj equal] at whole
        exact whole.symm.trans (reparse_members_perm nodup')
      -- the members of the second value, in the order of those of the first
      obtain ⟨middle, maps, order⟩ : ∃ middle, mapValues reparse members = mapValues reparse middle ∧
          middle.Perm ns := by
        have ordered := congrFun (congrFun (List.eq_map_comp_perm fun m : JsString × JsValue => (m.1, reparse m.2))
          (mapValues reparse members)) ns
        obtain ⟨middle, same, order⟩ := ordered.mpr perm
        exact ⟨middle, same, order⟩
      have keys := congrArg (List.map Prod.fst) maps
      have values := congrArg (List.map Prod.snd) maps
      rw [mapValues_keys, mapValues_keys] at keys
      rw [mapValues_values, mapValues_values] at values
      refine .object keys (forall₂_of_map (forall_values.mpr json) ?_ ?_ values) order
      · exact forall_values.mpr fun m inside => json' m (order.mem_iff.mp inside)
      · exact forall_values.mpr fun m inside w left right equal => ih m inside left right equal
    | number n => cases n <;> cases equal
    | null => cases equal
    | bool b => cases equal
    | string s => cases equal
    | array items => rw [reparse_array] at equal; cases equal

/-- A value is the same as its normal form. -/
theorem same_reparse {v : JsValue} (json : IsJson v) : Same v (reparse v) :=
  same_of_reparse json (isJson_reparse json) (reparse_reparse json).symm

end PortableCodex.CanonicalJson
