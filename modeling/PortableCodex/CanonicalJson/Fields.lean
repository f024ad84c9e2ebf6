import PortableCodex.CanonicalJson.Accounting

/-!
The fields of equal records.

What a checker reads from a value depends neither on the order of its members nor on the sign of a zero:
`exactDataFields` gives the fields of the normal form (`exactDataFields_reparse`).
-/

namespace PortableCodex.CanonicalJson

open Js ProviderState

/-! ### Parsed values -/

theorem settle_object (members : List (JsString × JsValue)) :
    settle (.object members) = .object (ofEntries (mapValues settle members)) := by
  rw [settle, settleMembers_eq_mapValues]

theorem settle_array (items : List JsValue) : settle (.array items) = .array (items.map settle) := by
  rw [settle, settleItems_eq_map]

theorem isJson_settle {v : JsValue} (json : IsJson v) : IsJson (settle v) := by
  induction v using JsValue.memberInduction with
  | null => trivial
  | bool b => trivial
  | string s => trivial
  | number n =>
    cases n with
    | finite negative d => trivial
    | nan => cases json
    | infinity negative => cases json
  | array items ih =>
    rw [isJson_array] at json
    rw [settle_array, isJson_array]
    intro v inside
    obtain ⟨u, there, rfl⟩ := List.mem_map.mp inside
    exact ih u there (json u there)
  | object members ih =>
    obtain ⟨nodup, json⟩ := isJson_object.mp json
    have distinct : ((mapValues settle members).map Prod.fst).Nodup := by
      rw [mapValues_keys]
      exact nodup
    rw [settle_object, isJson_object]
    refine ⟨ofEntries_nodup distinct, ?_⟩
    intro m inside
    obtain ⟨n, there, rfl⟩ := List.mem_map.mp ((ofEntries_perm distinct).mem_iff.mp inside)
    exact ih n there (json n there)

theorem reparse_settle {v : JsValue} (json : IsJson v) : reparse (settle v) = reparse v := by
  induction v using JsValue.memberInduction with
  | null => rfl
  | bool b => rfl
  | string s => rfl
  | number n => exact reparse_reparse json
  | array items ih =>
    rw [isJson_array] at json
    rw [settle_array, reparse_array, reparse_array, List.map_map]
    exact congrArg JsValue.array (List.map_congr_left fun v inside => ih v inside (json v inside))
  | object members ih =>
    obtain ⟨nodup, json⟩ := isJson_object.mp json
    have distinct : ((mapValues settle members).map Prod.fst).Nodup := by
      rw [mapValues_keys]
      exact nodup
    have values : mapValues reparse (mapValues settle members) = mapValues reparse members := by
      unfold mapValues
      rw [List.map_map]
      exact List.map_congr_left fun m inside => Prod.ext rfl (ih m inside (json m inside))
    have order : sortByKey (mapValues reparse (ofEntries (mapValues settle members))) =
        sortByKey (mapValues reparse members) := by
      rw [← values]
      refine sortByKey_perm_eq ((ofEntries_perm distinct).map _) ?_
      rw [mapValues_keys]
      exact distinct
    rw [settle_object, reparse_object, reparse_object, order]

/-- A value is the same as what the text of its normal form parses to. -/
theorem same_settle_reparse {v : JsValue} (json : IsJson v) : Same v (settle (reparse v)) := by
  refine same_of_reparse json (isJson_settle (isJson_reparse json)) ?_
  rw [reparse_settle (isJson_reparse json), reparse_reparse json]

/-- Texts of normal forms are equal only for equal values. -/
theorem stringify_reparse_inj {v w : JsValue} (left : IsJson v) (right : IsJson w)
    (same : stringify (reparse v) = stringify (reparse w)) : Same v w := by
  have parsed := parseJson_stringify (reparse v)
  rw [same, parseJson_stringify] at parsed
  have normal := congrArg reparse (Option.some.inj parsed)
  rw [reparse_settle (isJson_reparse right), reparse_settle (isJson_reparse left), reparse_reparse left,
    reparse_reparse right] at normal
  exact same_of_reparse left right normal.symm

/-! ### Fields -/

theorem mapM_map {α β : Type} {keys : List JsString} (f : α → β) (get : JsString → Option α) :
    (keys.mapM fun key => (get key).map f) = (keys.mapM get).map (List.map f) := by
  induction keys with
  | nil => rfl
  | cons key keys ih =>
    rw [List.mapM_cons, List.mapM_cons, ih]
    cases get key with
    | none => rfl
    | some a => cases keys.mapM get <;> rfl

/-- The fields of an object, read from members in another order. -/
theorem exactDataFields_perm {ms es : List (JsString × JsValue)} {keys : List JsString}
    (nodup : (ms.map Prod.fst).Nodup) (perm : ms.Perm es) :
    exactDataFields (.object ms) keys = exactDataFields (.object es) keys := by
  have names := perm.map Prod.fst
  have nodup' : (es.map Prod.fst).Nodup := names.nodup_iff.mp nodup
  have values : getMember ms = getMember es := funext (getMember_perm nodup perm)
  simp only [exactDataFields, exactDataObject, inspectPlainObject, if_pos nodup, if_pos nodup', Option.bind_eq_bind,
    Option.bind_some, names.length_eq, names.mem_iff, Option.bind_assoc, values]

theorem exactDataFields_mapValues (f : JsValue → JsValue) (ms : List (JsString × JsValue)) (keys : List JsString) :
    exactDataFields (.object (mapValues f ms)) keys = (exactDataFields (.object ms) keys).map (List.map f) := by
  by_cases nodup : (ms.map Prod.fst).Nodup
  · have values : getMember (mapValues f ms) = fun key => (getMember ms key).map f :=
      funext (getMember_mapValues f ms)
    simp only [exactDataFields, exactDataObject, inspectPlainObject, if_pos nodup, Option.bind_eq_bind,
      Option.bind_some, Option.bind_assoc, mapValues_keys, values, mapM_map]
    rw [Option.map_bind]
    rfl
  · have refused : exactDataFields (.object ms) keys = none := by
      simp only [exactDataFields, exactDataObject, inspectPlainObject, if_neg nodup, Option.bind_eq_bind,
        Option.bind_none]
    have refused' : exactDataFields (.object (mapValues f ms)) keys = none := by
      rw [← mapValues_keys f] at nodup
      simp only [exactDataFields, exactDataObject, inspectPlainObject, if_neg nodup, Option.bind_eq_bind,
        Option.bind_none]
    rw [refused, refused']
    rfl

/-- A record has the fields of its normal form, each in its normal form. -/
theorem exactDataFields_reparse {v : JsValue} (json : IsJson v) (keys : List JsString) :
    exactDataFields (reparse v) keys = (exactDataFields v keys).map (List.map reparse) := by
  cases v with
  | null => rfl
  | bool b => rfl
  | string s => rfl
  | number n => cases n <;> rfl
  | array items =>
    rw [reparse_array]
    rfl
  | object members =>
    obtain ⟨nodup, -⟩ := isJson_object.mp json
    have perm := reparse_members_perm nodup
    have distinct : ((ofEntries (sortByKey (mapValues reparse members))).map Prod.fst).Nodup := by
      rw [(perm.map Prod.fst).nodup_iff, mapValues_keys]
      exact nodup
    rw [reparse_object, exactDataFields_perm distinct perm, exactDataFields_mapValues]

theorem mapM_getMember_mem {ms : List (JsString × JsValue)} {keys : List JsString} {values : List JsValue}
    (h : keys.mapM (getMember ms) = some values) : ∀ v ∈ values, ∃ m ∈ ms, m.2 = v := by
  induction keys generalizing values with
  | nil =>
    cases h
    intro v never
    cases never
  | cons key keys ih =>
    rw [List.mapM_cons] at h
    obtain ⟨first, held, h⟩ := Option.bind_eq_some_iff.mp h
    obtain ⟨rest, later, same⟩ := Option.bind_eq_some_iff.mp h
    cases same
    obtain ⟨m, found, value⟩ := Option.map_eq_some_iff.mp held
    intro v inside
    rcases List.mem_cons.mp inside with here | there
    · exact ⟨m, List.mem_of_find?_eq_some found, value.trans here.symm⟩
    · exact ih later v there

theorem mapM_length {α : Type} {get : JsString → Option α} {keys : List JsString} {values : List α}
    (h : keys.mapM get = some values) : values.length = keys.length := by
  induction keys generalizing values with
  | nil =>
    cases h
    rfl
  | cons key keys ih =>
    rw [List.mapM_cons] at h
    obtain ⟨first, -, h⟩ := Option.bind_eq_some_iff.mp h
    obtain ⟨rest, later, same⟩ := Option.bind_eq_some_iff.mp h
    cases same
    exact congrArg Nat.succ (ih later)

theorem exactDataFields_length {v : JsValue} {keys : List JsString} {values : List JsValue}
    (h : exactDataFields v keys = some values) : values.length = keys.length := by
  obtain ⟨members, -, read⟩ := Option.bind_eq_some_iff.mp h
  exact mapM_length read

theorem isJson_fields {v : JsValue} {keys : List JsString} {values : List JsValue} (json : IsJson v)
    (h : exactDataFields v keys = some values) : ∀ w ∈ values, IsJson w := by
  obtain ⟨members, object, read⟩ := Option.bind_eq_some_iff.mp h
  obtain ⟨rfl, -⟩ := exactDataObject_eq_some object
  intro w inside
  obtain ⟨m, there, rfl⟩ := mapM_getMember_mem read w inside
  exact (isJson_object.mp json).2 m there

theorem isJson_record {keys : List JsString} {values : List JsValue} (nodup : keys.Nodup)
    (length : values.length = keys.length) (json : ∀ v ∈ values, IsJson v) : IsJson (record keys values) := by
  rw [record, isJson_object, List.map_fst_zip length.ge]
  refine ⟨nodup, ?_⟩
  intro m inside
  exact json m.2 (List.of_mem_zip inside).2

/-- A record of normal forms has the normal form of the record. -/
theorem reparse_record (keys : List JsString) {values : List JsValue} (json : ∀ v ∈ values, IsJson v) :
    reparse (record keys (values.map reparse)) = reparse (record keys values) := by
  have settled : (values.map reparse).map reparse = values.map reparse := by
    rw [List.map_map]
    exact List.map_congr_left fun v inside => reparse_reparse (json v inside)
  have maps (vs : List JsValue) : mapValues reparse (keys.zip vs) = keys.zip (vs.map reparse) := by
    rw [mapValues, List.zip_map_right]
    rfl
  rw [record, record, reparse_object, reparse_object, maps, maps, settled]

/-- The fields of a parsed record. -/
theorem exactDataFields_settle {keys names : List JsString} {values : List JsValue} (nodup : names.Nodup)
    (length : values.length = names.length) :
    exactDataFields (settle (record names values)) keys =
      (exactDataFields (record names values) keys).map (List.map settle) := by
  have distinct : ((mapValues settle (names.zip values)).map Prod.fst).Nodup := by
    rw [mapValues_keys, List.map_fst_zip length.ge]
    exact nodup
  rw [record, settle_object, exactDataFields_perm (ofEntries_nodup distinct) (ofEntries_perm distinct),
    exactDataFields_mapValues]

end PortableCodex.CanonicalJson
