import PortableCodex.ProviderState.Canonical

/-!
The laws of canonical JSON.

`reparse v` is the value that the canonical text of `v` denotes; `canonicalizeAt_sound` says that
what `canonicalize` returns is unchanged by `canonicalize` and by `reparse`, and that its budget
is the size of its canonical text.
-/

namespace PortableCodex.ProviderState

open Js

@[simp] theorem ensure_eq_some_iff {P : Prop} {_ : Decidable P} {u : Unit} : ensure P = some u ↔ P := by
  simp [ensure]

theorem ensure_pos {P : Prop} {_ : Decidable P} (h : P) : ensure P = some () := if_pos h

theorem ensure_neg {P : Prop} {_ : Decidable P} (h : ¬ P) : ensure P = none := if_neg h

theorem itemVisits_eq_map (vs : List JsValue) : itemVisits vs = vs.map canonicalizeAt := by
  induction vs with
  | nil => rfl
  | cons v vs ih => rw [itemVisits, ih]; rfl

theorem memberVisits_eq_mapValues (ms : List (JsString × JsValue)) :
    memberVisits ms = mapValues canonicalizeAt ms := by
  induction ms with
  | nil => rfl
  | cons m ms ih => rw [memberVisits, ih]; rfl

theorem canonicalItems_eq_map (vs : List JsValue) : canonicalItems vs = vs.map canonicalString := by
  induction vs with
  | nil => rfl
  | cons v vs ih => rw [canonicalItems, ih]; rfl

theorem canonicalMembers_eq_mapValues (ms : List (JsString × JsValue)) :
    canonicalMembers ms = mapValues canonicalString ms := by
  induction ms with
  | nil => rfl
  | cons m ms ih => rw [canonicalMembers, ih]; rfl

/-! ### The value of a canonical text -/

mutual

/-- The value with the members of every object in sorted order. -/
def sortDeep : JsValue → JsValue
  | .null => .null
  | .bool b => .bool b
  | .number n => .number n
  | .string s => .string s
  | .array items => .array (sortDeepItems items)
  | .object members => .object (sortByKey (sortDeepMembers members))

def sortDeepItems : List JsValue → List JsValue
  | [] => []
  | v :: vs => sortDeep v :: sortDeepItems vs

def sortDeepMembers : List (JsString × JsValue) → List (JsString × JsValue)
  | [] => []
  | (key, v) :: ms => (key, sortDeep v) :: sortDeepMembers ms

end

theorem sortDeepItems_eq_map (vs : List JsValue) : sortDeepItems vs = vs.map sortDeep := by
  induction vs with
  | nil => rfl
  | cons v vs ih => rw [sortDeepItems, ih]; rfl

theorem sortDeepMembers_eq_mapValues (ms : List (JsString × JsValue)) :
    sortDeepMembers ms = mapValues sortDeep ms := by
  induction ms with
  | nil => rfl
  | cons m ms ih => rw [sortDeepMembers, ih]; rfl

/-- The value that the canonical text of `v` denotes. -/
def reparse (v : JsValue) : JsValue := settle (sortDeep v)

@[simp] theorem reparse_null : reparse .null = .null := rfl
@[simp] theorem reparse_bool (b : Bool) : reparse (.bool b) = .bool b := rfl
@[simp] theorem reparse_string (s : JsString) : reparse (.string s) = .string s := rfl
@[simp] theorem reparse_number (n : JsNumber) : reparse (.number n) = settleNumber n := rfl

@[simp] theorem reparse_array (items : List JsValue) :
    reparse (.array items) = .array (items.map reparse) := by
  simp only [reparse, sortDeep, settle, sortDeepItems_eq_map, settleItems_eq_map, List.map_map]
  rfl

@[simp] theorem reparse_object (members : List (JsString × JsValue)) :
    reparse (.object members) = .object (ofEntries (sortByKey (mapValues reparse members))) := by
  have values : mapValues settle (mapValues sortDeep members) = mapValues reparse members := by
    simp only [mapValues, List.map_map]
    rfl
  simp only [reparse, sortDeep, settle, sortDeepMembers_eq_mapValues, settleMembers_eq_mapValues,
    mapValues_sortByKey, values]

theorem canonicalString_eq_stringify (v : JsValue) : canonicalString v = stringify (sortDeep v) := by
  induction v using JsValue.memberInduction with
  | null => rfl
  | bool b => cases b <;> rfl
  | number n => rfl
  | string s => rfl
  | array items ih =>
      have texts : canonicalItems items = stringifyItems (sortDeepItems items) := by
        rw [canonicalItems_eq_map, stringifyItems_eq_map, sortDeepItems_eq_map, List.map_map]
        exact List.map_congr_left ih
      rw [canonicalString, sortDeep, stringify, texts]
  | object members ih =>
      have texts : canonicalMembers members = mapValues stringify (sortDeepMembers members) := by
        rw [canonicalMembers_eq_mapValues, sortDeepMembers_eq_mapValues, mapValues, mapValues, mapValues,
          List.map_map]
        exact List.map_congr_left fun m member => by
          rw [ih m member]
          rfl
      rw [canonicalString, sortDeep, stringify, texts, stringifyMembers_eq_map, ← mapValues_sortByKey,
        mapValues, List.map_map]
      rfl

/-- The canonical text of a value parses as the value it denotes. -/
theorem parseJson_canonicalString (v : JsValue) : parseJson (canonicalString v) = some (reparse v) := by
  rw [canonicalString_eq_stringify, parseJson_stringify, reparse]

theorem inspectPlainObject_eq_some_iff {value : JsValue} {members : List (JsString × JsValue)} :
    inspectPlainObject value = some members ↔ value = .object members ∧ (members.map Prod.fst).Nodup := by
  cases value with
  | object ms =>
      simp only [inspectPlainObject, Option.ite_none_right_eq_some, Option.some.injEq, JsValue.object.injEq]
      constructor
      · rintro ⟨nodup, rfl⟩
        exact ⟨rfl, nodup⟩
      · rintro ⟨rfl, nodup⟩
        exact ⟨nodup, rfl⟩
  | _ => simp [inspectPlainObject]

theorem exactDataObject_eq_some {value : JsValue} {allowed required : List JsString}
    {members : List (JsString × JsValue)} (h : exactDataObject value allowed required = some members) :
    value = .object members ∧ (members.map Prod.fst).Nodup ∧
      (∀ key ∈ members.map Prod.fst, key ∈ allowed) ∧ ∀ key ∈ required, key ∈ members.map Prod.fst := by
  simp only [exactDataObject, Option.bind_eq_bind, Option.bind_eq_some_iff,
    ensure_eq_some_iff, Option.some.injEq, inspectPlainObject_eq_some_iff] at h
  obtain ⟨ms, ⟨rfl, nodup⟩, -, ⟨-, allowed, required⟩, rfl⟩ := h
  exact ⟨rfl, nodup, allowed, required⟩

/-- Where a record is read from: the object held in memory, or the one its canonical text denotes. -/
inductive Form where
  | held
  | parsed

def Form.of : Form → JsValue → JsValue
  | .held, v => v
  | .parsed, v => reparse v

@[simp] theorem Form.of_null (form : Form) : form.of .null = .null := by cases form <;> rfl

@[simp] theorem Form.of_string (form : Form) (s : JsString) : form.of (.string s) = .string s := by
  cases form <;> rfl

/-- The object of a record has the record's members, in the same form. -/
theorem exactDataObject_of (form : Form) {members : List (JsString × JsValue)} {keys : List JsString}
    (nodup : (members.map Prod.fst).Nodup) (same : (members.map Prod.fst).Perm keys) :
    ∃ ms, exactDataObject (form.of (.object members)) keys keys = some ms ∧
      ∀ key, getMember ms key = (getMember members key).map form.of := by
  have accepts {ms : List (JsString × JsValue)} (distinct : (ms.map Prod.fst).Nodup)
      (perm : (ms.map Prod.fst).Perm keys) : exactDataObject (.object ms) keys keys = some ms := by
    simp only [exactDataObject, inspectPlainObject, if_pos distinct, Option.bind_eq_bind, Option.bind_some]
    rw [ensure_pos, Option.bind_some]
    exact ⟨perm.length_eq.le, fun key member => perm.mem_iff.mp member,
      fun key member => perm.mem_iff.mpr member⟩
  cases form with
  | held => exact ⟨members, accepts nodup same, fun key => Option.map_id'.symm⟩
  | parsed =>
      have nodup' : ((mapValues reparse members).map Prod.fst).Nodup := by rwa [mapValues_keys]
      have sorted := sortByKey_sorted nodup'
      have perm : (ofEntries (sortByKey (mapValues reparse members))).Perm (mapValues reparse members) :=
        (ofEntries_perm sorted.nodup).trans (sortByKey_perm _)
      have keysPerm : ((ofEntries (sortByKey (mapValues reparse members))).map Prod.fst).Perm keys := by
        refine (perm.map Prod.fst).trans ?_
        rwa [mapValues_keys]
      have distinct := ofEntries_nodup sorted.nodup
      refine ⟨ofEntries (sortByKey (mapValues reparse members)), ?_, fun key => ?_⟩
      · rw [Form.of, reparse_object]
        exact accepts distinct keysPerm
      · rw [getMember_perm distinct perm, getMember_mapValues]
        rfl

theorem mapM_getMember {ms es : List (JsString × JsValue)}
    (found : ∀ m ∈ es, getMember ms m.1 = some m.2) :
    (es.map Prod.fst).mapM (getMember ms) = some (es.map Prod.snd) := by
  induction es with
  | nil => rfl
  | cons m es ih =>
      have rest := ih fun m member => found m (List.mem_cons_of_mem _ member)
      simp only [List.map_cons, List.mapM_cons, found m List.mem_cons_self, rest, Option.bind_eq_bind,
        Option.bind_some, Option.pure_def]

/-- A record is read with each of its values in the same form. -/
theorem exactDataFields_of (form : Form) {keys : List JsString} {values : List JsValue} (nodup : keys.Nodup)
    (length : values.length = keys.length) :
    exactDataFields (form.of (record keys values)) keys = some (values.map form.of) := by
  have names : (keys.zip values).map Prod.fst = keys := List.map_fst_zip length.ge
  have distinct : ((keys.zip values).map Prod.fst).Nodup := by rwa [names]
  obtain ⟨ms, object, member⟩ := exactDataObject_of form distinct (List.Perm.of_eq names)
  have zip : mapValues form.of (keys.zip values) = keys.zip (values.map form.of) := by
    rw [mapValues, List.zip_map_right]
    rfl
  have found : ∀ m ∈ keys.zip (values.map form.of), getMember ms m.1 = some m.2 := by
    intro m inside
    rw [← zip] at inside
    obtain ⟨⟨key, v⟩, original, rfl⟩ := List.mem_map.mp inside
    rw [member, (getMember_eq_some_iff distinct).mpr original]
    rfl
  have fields := mapM_getMember found
  rw [List.map_fst_zip (by rw [List.length_map, length]), List.map_snd_zip (by rw [List.length_map, length])]
    at fields
  simp only [exactDataFields, record, object, Option.bind_eq_bind, Option.bind_some, fields]

/-! ### Canonical values -/

/-- An ASCII unit other than the head splits a text into pieces of independent size. -/
theorem byteLength_append (a : JsString) {b : JsString} (h : ∀ u ∈ b.head?, isLowSurrogate u = false) :
    byteLength (a ++ b) = byteLength a + byteLength b := by
  rw [byteLength, encodeUtf8_append a h, List.length_append, byteLength, byteLength]

theorem byteLength_ascii {u : UInt16} (h : u.toNat < 0x80) (s : JsString) :
    byteLength (u :: s) = 1 + byteLength s := by
  have high : isHighSurrogate u = false := by simp only [isHighSurrogate, decide_eq_false_iff_not]; omega
  rw [byteLength, encodeUtf8_cons high, encodeUnit, if_pos h, List.length_append, byteLength]
  rfl

theorem byteLength_joinComma (items : List JsString) :
    byteLength (joinComma items) = (items.map byteLength).sum + (items.length - 1) := by
  induction items with
  | nil => rfl
  | cons item items ih =>
      cases items with
      | nil => simp [joinComma]
      | cons next items =>
          rw [joinComma_cons _ (List.cons_ne_nil _ _), byteLength_append _ (by rintro u ⟨⟩; decide),
            byteLength_ascii (by decide), ih]
          simp only [List.map_cons, List.sum_cons, List.length_cons]
          omega

theorem byteLength_bracket (s : JsString) {u v : UInt16} (open_ : u.toNat < 0x80) (close : v.toNat < 0x80) :
    byteLength (u :: (s ++ [v])) = 2 + byteLength s := by
  have low : isLowSurrogate v = false := by simp only [isLowSurrogate, decide_eq_false_iff_not]; omega
  rw [byteLength_ascii open_, byteLength_append s (by rintro w ⟨⟩; exact low), byteLength_ascii close]
  have none : byteLength [] = 0 := rfl
  omega

theorem byteLength_member (key text : JsString) :
    byteLength (quote key ++ 58 :: text) = byteLength (quote key) + 1 + byteLength text := by
  rw [byteLength_append _ (by rintro u ⟨⟩; decide), byteLength_ascii (by decide)]
  omega

theorem consumeBudget_eq_some_iff {budget next : Budget} {bytes : Nat} :
    consumeBudget budget bytes = some next ↔
      budget.bytes + bytes ≤ maxCanonicalBytes ∧ { budget with bytes := budget.bytes + bytes } = next := by
  simp only [consumeBudget, Option.bind_eq_bind, Option.bind_eq_some_iff, ensure_eq_some_iff,
    exists_const, Option.some.injEq]

theorem enterNode_eq_some_iff {depth : Nat} {budget next : Budget} :
    enterNode depth budget = some next ↔
      (budget.nodes + 1 ≤ maxCanonicalNodes ∧ depth ≤ maxCanonicalDepth) ∧
        { budget with nodes := budget.nodes + 1 } = next := by
  simp only [enterNode, Option.bind_eq_bind, Option.bind_eq_some_iff, ensure_eq_some_iff,
    exists_const, Option.some.injEq]

/-- What a visit returns is unchanged by canonicalizing it again and by the trip through its text,
and has consumed the size of its text. -/
structure Sound (depth : Nat) (budget : Budget) (w : JsValue) (next : Budget) : Prop where
  fixed : canonicalizeAt w depth budget = some (w, next)
  reparsed : reparse w = w
  consumed : next.bytes = budget.bytes + byteLength (canonicalString w)
  within : next.bytes ≤ maxCanonicalBytes

/-- What running the visits of items returns. -/
theorem runItems_sound {depth : Nat} {vs : List JsValue}
    (sound : ∀ v ∈ vs, ∀ depth budget w next, canonicalizeAt v depth budget = some (w, next) →
      Sound depth budget w next)
    {budget next : Budget} {ws : List JsValue}
    (run : runItems depth (vs.map canonicalizeAt) budget = some (ws, next)) :
    runItems depth (ws.map canonicalizeAt) budget = some (ws, next) ∧ ws.map reparse = ws ∧
      ws.length = vs.length ∧
      next.bytes = budget.bytes + ((ws.map canonicalString).map byteLength).sum ∧
      (budget.bytes ≤ maxCanonicalBytes → next.bytes ≤ maxCanonicalBytes) := by
  induction vs generalizing budget ws with
  | nil =>
      simp only [List.map_nil, runItems, Option.some.injEq, Prod.mk.injEq] at run
      obtain ⟨rfl, rfl⟩ := run
      exact ⟨rfl, rfl, rfl, rfl, id⟩
  | cons v vs ih =>
      simp only [List.map_cons, runItems, Option.bind_eq_bind, Option.bind_eq_some_iff] at run
      obtain ⟨⟨w, middle⟩, visited, ⟨ws', next'⟩, rest, result⟩ := run
      simp only [Option.some.injEq, Prod.mk.injEq] at result
      obtain ⟨rfl, rfl⟩ := result
      obtain ⟨fixed, reparsed, consumed, within⟩ := sound v List.mem_cons_self _ _ _ _ visited
      obtain ⟨fixed', reparsed', length', consumed', within'⟩ :=
        ih (fun v member => sound v (List.mem_cons_of_mem _ member)) rest
      refine ⟨?_, by rw [List.map_cons, reparsed, reparsed'], by rw [List.length_cons, length']; rfl, ?_,
        fun _ => within' within⟩
      · simp only [List.map_cons, runItems, fixed, fixed', Option.bind_eq_bind, Option.bind_some]
      · dsimp only at consumed consumed'
        simp only [List.map_cons, List.sum_cons]
        omega

theorem runMembers_sound {depth : Nat} {vs : List (JsString × JsValue)}
    (sound : ∀ m ∈ vs, ∀ depth budget w next, canonicalizeAt m.2 depth budget = some (w, next) →
      Sound depth budget w next)
    {budget next : Budget} {ws : List (JsString × JsValue)}
    (run : runMembers depth (mapValues canonicalizeAt vs) budget = some (ws, next)) :
    runMembers depth (mapValues canonicalizeAt ws) budget = some (ws, next) ∧
      mapValues reparse ws = ws ∧ ws.map Prod.fst = vs.map Prod.fst ∧
      next.bytes = budget.bytes +
        ((ws.map fun m => quote m.1 ++ 58 :: canonicalString m.2).map byteLength).sum ∧
      (budget.bytes ≤ maxCanonicalBytes → next.bytes ≤ maxCanonicalBytes) := by
  induction vs generalizing budget ws with
  | nil =>
      simp only [mapValues, List.map_nil, runMembers, Option.some.injEq, Prod.mk.injEq] at run
      obtain ⟨rfl, rfl⟩ := run
      exact ⟨rfl, rfl, rfl, rfl, id⟩
  | cons m vs ih =>
      obtain ⟨key, v⟩ := m
      simp only [mapValues, List.map_cons, runMembers, Option.bind_eq_bind, Option.bind_eq_some_iff] at run
      obtain ⟨_, lossless, named, name, ⟨w, middle⟩, visited, ⟨ws', next'⟩, rest, result⟩ := run
      simp only [Option.some.injEq, Prod.mk.injEq] at result
      obtain ⟨rfl, rfl⟩ := result
      obtain ⟨fixed, reparsed, consumed, within⟩ := sound _ List.mem_cons_self _ _ _ _ visited
      obtain ⟨fixed', reparsed', keys', consumed', within'⟩ :=
        ih (fun v member => sound v (List.mem_cons_of_mem _ member)) rest
      obtain ⟨-, named_eq⟩ := consumeBudget_eq_some_iff.mp name
      have bytes : named.bytes = budget.bytes + (byteLength (quote key) + 1) := by rw [← named_eq]
      simp only [mapValues] at fixed' reparsed'
      refine ⟨?_, ?_, by rw [List.map_cons, List.map_cons, keys'], ?_, fun _ => within' within⟩
      · simp only [mapValues, List.map_cons, runMembers, Option.bind_eq_bind, lossless, name, fixed, fixed',
          Option.bind_some]
      · rw [mapValues, List.map_cons, reparsed, reparsed']
      · dsimp only at consumed consumed'
        simp only [List.map_cons, List.sum_cons, byteLength_member]
        omega

/-- `canonicalize` returns fixed points of itself and of the trip through the canonical text. -/
theorem canonicalizeAt_sound (v : JsValue) : ∀ depth budget w next,
    canonicalizeAt v depth budget = some (w, next) → Sound depth budget w next := by
  induction v using JsValue.memberInduction with
  | null =>
      intro depth budget w next visited
      have same := visited
      simp only [canonicalizeAt, Option.bind_eq_bind, Option.bind_eq_some_iff, Option.some.injEq,
        Prod.mk.injEq, enterNode_eq_some_iff, consumeBudget_eq_some_iff] at visited
      obtain ⟨-, ⟨-, rfl⟩, -, ⟨within, rfl⟩, rfl, rfl⟩ := visited
      exact ⟨same, rfl, rfl, within⟩
  | bool b =>
      intro depth budget w next visited
      have same := visited
      simp only [canonicalizeAt, Option.bind_eq_bind, Option.bind_eq_some_iff, Option.some.injEq,
        Prod.mk.injEq, enterNode_eq_some_iff, consumeBudget_eq_some_iff] at visited
      obtain ⟨-, ⟨-, rfl⟩, -, ⟨within, rfl⟩, rfl, rfl⟩ := visited
      exact ⟨same, rfl, by cases b <;> rfl, within⟩
  | number n =>
      intro depth budget w next visited
      cases n with
      | finite negative d =>
          simp only [canonicalizeAt, Option.bind_eq_bind, Option.bind_eq_some_iff, Option.some.injEq,
            Prod.mk.injEq] at visited
          obtain ⟨entered, enter, consumed, consume, rfl, rfl⟩ := visited
          have stable : (negative && d.mantissa != 0 && d.mantissa != 0) = (negative && d.mantissa != 0) := by
            rw [Bool.and_assoc, Bool.and_self]
          refine ⟨?_, by rw [reparse_number, settleNumber, stable], ?_, ?_⟩
          · simp only [canonicalizeAt, Option.bind_eq_bind, enter, Option.bind_some, stable, consume]
          · obtain ⟨-, rfl⟩ := enterNode_eq_some_iff.mp enter
            obtain ⟨-, rfl⟩ := consumeBudget_eq_some_iff.mp consume
            rfl
          · obtain ⟨within, rfl⟩ := consumeBudget_eq_some_iff.mp consume
            exact within
      | _ => simp only [canonicalizeAt, reduceCtorEq] at visited
  | string s =>
      intro depth budget w next visited
      have same := visited
      simp only [canonicalizeAt, Option.bind_eq_bind, Option.bind_eq_some_iff, enterNode_eq_some_iff,
        consumeBudget_eq_some_iff, Option.some.injEq, Prod.mk.injEq] at visited
      obtain ⟨-, ⟨-, rfl⟩, -, -, -, ⟨within, rfl⟩, rfl, rfl⟩ := visited
      exact ⟨same, rfl, rfl, within⟩
  | array items ih =>
      intro depth budget w next visited
      simp only [canonicalizeAt, Option.bind_eq_bind, Option.bind_eq_some_iff, Option.some.injEq,
        Prod.mk.injEq] at visited
      obtain ⟨entered, enter, _, capacity, framed, frame, ⟨ws, last⟩, run, rfl, rfl⟩ := visited
      rw [itemVisits_eq_map] at run
      obtain ⟨fixed, reparsed, length, consumed, within⟩ := runItems_sound ih run
      refine ⟨?_, by rw [reparse_array, reparsed], ?_, ?_⟩
      · simp only [canonicalizeAt, Option.bind_eq_bind, enter, Option.bind_some, length, capacity, frame,
          itemVisits_eq_map, fixed]
      · obtain ⟨-, rfl⟩ := enterNode_eq_some_iff.mp enter
        obtain ⟨-, rfl⟩ := consumeBudget_eq_some_iff.mp frame
        rw [canonicalString, byteLength_bracket _ (by decide) (by decide), byteLength_joinComma,
          canonicalItems_eq_map, List.length_map, length, consumed]
        dsimp only
        omega
      · obtain ⟨bound, rfl⟩ := consumeBudget_eq_some_iff.mp frame
        exact within bound
  | object members ih =>
      intro depth budget w next visited
      simp only [canonicalizeAt, Option.bind_eq_bind, Option.bind_eq_some_iff, Option.some.injEq,
        Prod.mk.injEq, ensure_eq_some_iff] at visited
      obtain ⟨entered, enter, -, nodup, framed, frame, ⟨ws, last⟩, run, rfl, rfl⟩ := visited
      rw [memberVisits_eq_mapValues, ← mapValues_sortByKey] at run
      obtain ⟨fixed, reparsed, keys, consumed, within⟩ :=
        runMembers_sound (fun m member => ih m ((sortByKey_perm members).mem_iff.mp member)) run
      -- the keys of the copy are those of the value, in sorted order
      have sorted : SortedKeys ws := by
        have ascending := List.pairwise_map.mpr (sortByKey_sorted nodup)
        rw [← keys] at ascending
        exact List.pairwise_map.mp ascending
      have perm := ofEntries_perm sorted.nodup
      have length : (ofEntries ws).length = members.length := by
        rw [perm.length_eq, ← List.length_map (f := Prod.fst), keys, List.length_map,
          (sortByKey_perm members).length_eq]
      refine ⟨?_, ?_, ?_, ?_⟩
      · simp only [canonicalizeAt, Option.bind_eq_bind, enter, Option.bind_some, length,
          ensure_pos (ofEntries_nodup sorted.nodup), frame, memberVisits_eq_mapValues,
          ← mapValues_sortByKey, sortByKey_ofEntries sorted, fixed]
      · rw [reparse_object, ← mapValues_sortByKey, sortByKey_ofEntries sorted, reparsed]
      · obtain ⟨-, rfl⟩ := enterNode_eq_some_iff.mp enter
        obtain ⟨-, rfl⟩ := consumeBudget_eq_some_iff.mp frame
        have texts : (sortByKey (canonicalMembers (ofEntries ws))).map (fun m => quote m.1 ++ 58 :: m.2) =
            ws.map fun m => quote m.1 ++ 58 :: canonicalString m.2 := by
          rw [canonicalMembers_eq_mapValues, ← mapValues_sortByKey, sortByKey_ofEntries sorted,
            mapValues, List.map_map]
          rfl
        rw [canonicalString, byteLength_bracket _ (by decide) (by decide), texts, byteLength_joinComma,
          List.length_map, ← perm.length_eq, length, consumed]
        dsimp only
        omega
      · obtain ⟨bound, rfl⟩ := consumeBudget_eq_some_iff.mp frame
        exact within bound

theorem canonicalizeAt_object {members : List (JsString × JsValue)} {depth : Nat} {budget next : Budget}
    {w : JsValue} (h : canonicalizeAt (.object members) depth budget = some (w, next)) :
    (members.map Prod.fst).Nodup ∧ ∃ ms, w = .object ms := by
  simp only [canonicalizeAt, Option.bind_eq_bind, Option.bind_eq_some_iff, ensure_eq_some_iff,
    Option.some.injEq, Prod.mk.injEq] at h
  obtain ⟨-, -, -, nodup, -, -, -, -, rfl, -⟩ := h
  exact ⟨nodup, _, rfl⟩

/-- The laws of a canonical object: a request or a result. -/
theorem canonicalObject_sound {value w : JsValue} (h : canonicalObject value = some w) :
    canonicalObject w = some w ∧ reparse w = w ∧ byteLength (canonicalString w) ≤ maxCanonicalBytes := by
  simp only [canonicalObject, canonicalize, Option.bind_eq_bind, Option.bind_eq_some_iff,
    Option.map_eq_some_iff, inspectPlainObject_eq_some_iff] at h
  obtain ⟨members, ⟨rfl, -⟩, ⟨w, next⟩, visited, rfl⟩ := h
  obtain ⟨fixed, reparsed, consumed, within⟩ := canonicalizeAt_sound _ _ _ _ _ visited
  obtain ⟨-, ms, rfl⟩ := canonicalizeAt_object visited
  obtain ⟨nodup, -⟩ := canonicalizeAt_object fixed
  refine ⟨?_, reparsed, ?_⟩
  · simp only [canonicalObject, canonicalize, fixed, inspectPlainObject, if_pos nodup,
      Option.bind_eq_bind, Option.bind_some, Option.map_some]
  · dsimp only at consumed ⊢
    omega

/-- The bytes of a canonical text decode to it. -/
theorem decodeUtf8_canonicalString (v : JsValue) :
    decodeUtf8 (encodeUtf8 (canonicalString v)) = canonicalString v := by
  rw [canonicalString_eq_stringify]
  exact (lossless_iff_wellFormed _).mpr (wellFormed_stringify _)

end PortableCodex.ProviderState
