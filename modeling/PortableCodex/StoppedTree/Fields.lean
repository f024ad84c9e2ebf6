import PortableCodex.StoppedTree.Resolution

/-!
Fields with their lengths in front: the concatenation of `updateHashFields` can be taken apart.

A length is written in decimal digits and ends with a colon, so the first colon of what is left ends
the length of the next field, whatever bytes the fields have (`updateHashFields_injective`).
-/

namespace PortableCodex.StoppedTree

open Js

theorem split_unique {α : Type} {mark : α} {a b x y : List α} (first : mark ∉ a) (second : mark ∉ b)
    (same : a ++ mark :: x = b ++ mark :: y) : a = b ∧ x = y := by
  induction a generalizing b with
  | nil =>
    cases b with
    | nil => exact ⟨rfl, (List.cons.inj same).2⟩
    | cons u b => exact absurd (List.mem_cons.mpr (.inl (List.cons.inj same).1)) second
  | cons v a ih =>
    cases b with
    | nil => exact absurd (List.mem_cons.mpr (.inl (List.cons.inj same).1.symm)) first
    | cons u b =>
      obtain ⟨rfl, tails⟩ := List.cons.inj same
      rw [List.mem_cons, not_or] at first second
      obtain ⟨rfl, rest⟩ := ih first.2 second.2 tails
      exact ⟨rfl, rest⟩

/-! ### Texts -/

theorem encodeUtf8_ascii {s : JsString} (ascii : ∀ u ∈ s, u.toNat < 0x80) :
    encodeUtf8 s = s.map fun u => byte u.toNat := by
  induction s with
  | nil => rfl
  | cons u s ih =>
    have small := ascii u List.mem_cons_self
    have low : isHighSurrogate u = false := by
      simp only [isHighSurrogate, decide_eq_false_iff_not]
      omega
    rw [encodeUtf8_cons low, encodeUnit, if_pos small, ih fun v inside => ascii v (List.mem_cons_of_mem _ inside)]
    rfl

/-- Well-formed texts with the same bytes are the same. -/
theorem encodeUtf8_inj {s t : JsString} (first : WellFormed s) (second : WellFormed t)
    (same : encodeUtf8 s = encodeUtf8 t) : s = t := by
  rw [← (lossless_iff_wellFormed s).mpr first, same]
  exact (lossless_iff_wellFormed t).mpr second

theorem decimal_ascii (n : Nat) : ∀ u ∈ decimal n, u.toNat < 0x80 := by
  intro u member
  have digit := decimal_all_digits n u member
  simp only [isDigit, decide_eq_true_eq] at digit
  omega

theorem encodeUtf8_decimal_injective {m n : Nat} (same : encodeUtf8 (decimal m) = encodeUtf8 (decimal n)) : m = n :=
  decimal_injective
    (encodeUtf8_inj (wellFormed_of_ascii (decimal_ascii m)) (wellFormed_of_ascii (decimal_ascii n)) same)

/-! ### Lengths -/

theorem colon_notMem_decimal (n : Nat) : (0x3A : UInt8) ∉ encodeUtf8 (decimal n) := by
  rw [encodeUtf8_ascii (decimal_ascii n), List.mem_map]
  rintro ⟨u, member, same⟩
  have digit := decimal_all_digits n u member
  simp only [isDigit, decide_eq_true_eq] at digit
  have value := congrArg UInt8.toNat same
  rw [byte_toNat (by omega)] at value
  have colon : (0x3A : UInt8).toNat = 58 := rfl
  omega

theorem updateHashFields_cons (field : Bytes) (fields : List Bytes) :
    updateHashFields (field :: fields) =
      encodeUtf8 (decimal field.length) ++ 0x3A :: (field ++ updateHashFields fields) := by
  have colon : encodeUtf8 (decimal field.length ++ js ":") = encodeUtf8 (decimal field.length) ++ [0x3A] :=
    encodeUtf8_append _ (by rintro u ⟨⟩; decide)
  rw [updateHashFields, List.flatMap_cons, colon, ← updateHashFields]
  simp

/-- The stream determines the fields. -/
theorem updateHashFields_injective : Function.Injective updateHashFields := by
  intro fields others same
  induction fields generalizing others with
  | nil =>
    cases others with
    | nil => rfl
    | cons other others =>
      rw [updateHashFields_cons] at same
      exact absurd same.symm (List.append_ne_nil_of_right_ne_nil _ (List.cons_ne_nil _ _))
  | cons field fields ih =>
    cases others with
    | nil =>
      rw [updateHashFields_cons] at same
      exact absurd same (List.append_ne_nil_of_right_ne_nil _ (List.cons_ne_nil _ _))
    | cons other others =>
      rw [updateHashFields_cons, updateHashFields_cons] at same
      obtain ⟨lengths, rest⟩ := split_unique (colon_notMem_decimal _) (colon_notMem_decimal _) same
      obtain ⟨rfl, tails⟩ := List.append_inj rest (encodeUtf8_decimal_injective lengths)
      rw [ih tails]

/-! ### Paths -/

theorem ascii_mem_encodeUtf8 {s : JsString} {u : UInt16} (small : u.toNat < 0x80) (member : u ∈ s) :
    byte u.toNat ∈ encodeUtf8 s := by
  have plain : encodeUnit u = [byte u.toNat] := if_pos small
  have noPair (high : isHighSurrogate u = true ∨ isLowSurrogate u = true) : False := by
    simp only [isHighSurrogate, isLowSurrogate, decide_eq_true_eq] at high
    omega
  induction s using encodeUtf8.induct with
  | case1 => cases member
  | case2 v =>
    obtain rfl := List.mem_singleton.mp member
    rw [encodeUtf8, plain]
    exact List.mem_singleton_self _
  | case3 v w rest pair ih =>
    obtain ⟨high, low⟩ := Bool.and_eq_true_iff.mp pair
    rw [encodeUtf8, if_pos pair]
    rcases List.mem_cons.mp member with rfl | member
    · exact (noPair (.inl high)).elim
    rcases List.mem_cons.mp member with rfl | member
    · exact (noPair (.inr low)).elim
    · exact List.mem_append_right _ (ih member)
  | case4 v w rest single ih =>
    rw [encodeUtf8, if_neg single]
    rcases List.mem_cons.mp member with rfl | member
    · rw [plain]
      exact List.mem_append_left _ (List.mem_singleton_self _)
    · exact List.mem_append_right _ (ih member)

/-- A name that a directory of a file system can list. -/
def IsFileName (name : Bytes) : Prop := name ≠ [] ∧ name ≠ [46] ∧ 47 ∉ name

/-- A component of a path, as the text of a name. -/
structure IsComponent (component : JsString) : Prop where
  wellFormed : WellFormed component
  noSlash : 47 ∉ component
  notEmpty : component ≠ []
  notDot : component ≠ js "."

theorem isComponent_of_name {name : Bytes} {component : JsString} (valid : IsFileName name)
    (decoded : decodePortablePathBytes name = some component) : IsComponent component := by
  obtain ⟨text, bytes⟩ := decodePortablePathBytes_eq_some.mp decoded
  subst bytes
  refine ⟨(lossless_iff_wellFormed component).mp text, ?_, ?_, ?_⟩
  · intro slash
    exact valid.2.2 (ascii_mem_encodeUtf8 (by decide) slash)
  · rintro rfl
    exact valid.1 rfl
  · rintro rfl
    exact valid.2.1 rfl

theorem wellFormed_path {names : List JsString} (components : ∀ component ∈ names, IsComponent component) :
    WellFormed (List.intercalate [47] names) := by
  induction names with
  | nil => trivial
  | cons name names ih =>
    rw [List.forall_mem_cons] at components
    have rest := ih components.2
    cases names with
    | nil => simpa using components.1.wellFormed
    | cons other names =>
      rw [List.intercalate_cons_cons]
      have slash : WellFormed [47] := wellFormed_of_ascii (by decide)
      exact wellFormed_append (wellFormed_append components.1.wellFormed slash) rest

theorem splitOn_path {names : List JsString} (components : ∀ component ∈ names, IsComponent component)
    (some : names ≠ []) : (List.intercalate [47] names).splitOn 47 = names :=
  List.splitOn_intercalate 47 (fun name member => (components name member).noSlash) some

/-- The text of a path determines its components. -/
theorem path_injective {names others : List JsString} (first : ∀ component ∈ names, IsComponent component)
    (second : ∀ component ∈ others, IsComponent component)
    (same : List.intercalate [47] names = List.intercalate [47] others) : names = others := by
  have notEmpty {names : List JsString} (components : ∀ component ∈ names, IsComponent component) (some : names ≠ [])
      (empty : ([] : JsString) = List.intercalate [47] names) : False := by
    have single := splitOn_path components some
    rw [← empty] at single
    have only : [[]] = names := single
    exact (components [] (only ▸ List.mem_singleton_self _)).notEmpty rfl
  by_cases none : names = []
  · subst none
    by_cases nothing : others = []
    · rw [nothing]
    · exact (notEmpty second nothing same).elim
  · by_cases nothing : others = []
    · subst nothing
      exact (notEmpty first none same.symm).elim
    · rw [← splitOn_path first none, same, splitOn_path second nothing]

theorem wellFormed_entryPath {path : List JsString} (components : ∀ component ∈ path, IsComponent component) :
    WellFormed (entryPath path) := by
  unfold entryPath
  split
  · exact wellFormed_of_ascii (by decide)
  · exact wellFormed_path fun component member => components component (List.mem_reverse.mp member)

theorem entryPath_injective {path other : List JsString} (first : ∀ component ∈ path, IsComponent component)
    (second : ∀ component ∈ other, IsComponent component) (same : entryPath path = entryPath other) :
    path = other := by
  have reversed {names : List JsString} (components : ∀ component ∈ names, IsComponent component) :
      ∀ component ∈ names.reverse, IsComponent component :=
    fun component member => components component (List.mem_reverse.mp member)
  have notDot {names : List JsString} (components : ∀ component ∈ names, IsComponent component) (some : names ≠ [])
      (dot : js "." = List.intercalate [47] names.reverse) : False := by
    have single := splitOn_path (reversed components) (by simpa using some)
    rw [← dot] at single
    have only : [js "."] = names.reverse := single
    exact (reversed components (js ".") (only ▸ List.mem_singleton_self _)).notDot rfl
  unfold entryPath at same
  split at same <;> split at same
  · rename_i none nothing
    rw [none, nothing]
  · rename_i none some
    exact (notDot second some same).elim
  · rename_i some none
    exact (notDot first some same.symm).elim
  · exact List.reverse_injective (path_injective (reversed first) (reversed second) same)

end PortableCodex.StoppedTree
