import PortableCodex.CanonicalJson.Accounting
import PortableCodex.CanonicalJson.Strings
import PortableCodex.Journal.Record

/-!
The budget of a journal value.

`jsonStringByteLength` is the length of the text of a string without unpaired surrogates, so `canonicalize`
consumes the length of the text of what it returns (`accounts_canonicalizeAt`).
-/

namespace PortableCodex.Journal

open Js CanonicalJson
open ProviderState (Budget Visit byteLength byteLength_append byteLength_ascii byteLength_bracket ensure_eq_some_iff
  ensure_pos reparse reparse_array reparse_object)

/-! ### Strings -/

/-- The unit lengths of the journal are those of the text. -/
theorem jsonUnitByteLength_eq (u : UInt16) : jsonUnitByteLength u = unitLength u := rfl

theorem byteLength_quoteUnits {s : JsString} (wellFormed : WellFormed s) :
    byteLength (quoteUnits s) = jsonUnitsByteLength s := by
  induction s using quoteUnits.induct with
  | case1 => rfl
  | case2 u =>
    rw [quoteUnits, jsonUnitsByteLength, wellFormed.1, if_neg Bool.false_ne_true, jsonUnitByteLength_eq,
      byteLength_quoteUnit wellFormed.1 wellFormed.2]
  | case3 u v rest pair ih =>
    rw [WellFormed, if_pos pair] at wellFormed
    obtain ⟨high, low⟩ := Bool.and_eq_true_iff.mp pair
    rw [quoteUnits, if_pos pair, byteLength_pair high low, jsonUnitsByteLength, if_pos high, ih wellFormed]
  | case4 u v rest single ih =>
    rw [WellFormed, if_neg single] at wellFormed
    obtain ⟨⟨high, low⟩, wellFormed⟩ := wellFormed
    rw [quoteUnits, if_neg single, byteLength_append _ (wellFormed_head (wellFormed_quoteUnits _)),
      byteLength_quoteUnit high low, jsonUnitsByteLength, high, if_neg Bool.false_ne_true, jsonUnitByteLength_eq,
      ih wellFormed]

/-- The length of the text of a string. -/
theorem jsonStringByteLength_eq {s : JsString} (wellFormed : WellFormed s) :
    jsonStringByteLength s = byteLength (quote s) := by
  rw [quote, byteLength_bracket _ (by decide) (by decide), byteLength_quoteUnits wellFormed]
  rfl

/-! ### Budgets -/

/-- The limits and checks of `canonicalize`. -/
def policy : Policy where
  maxBytes := maxCanonicalBytes
  maxNodes := maxCanonicalNodes
  maxDepth := maxCanonicalDepth
  text := assertLosslessString
  key key := assertLosslessString key ∧ sensitiveKeyPattern.test key = false

theorem consumeCanonicalBytes_eq_some_iff {budget next : Budget} {bytes : Nat} :
    consumeCanonicalBytes budget bytes = some next ↔
      budget.bytes + bytes ≤ maxCanonicalBytes ∧ next = consumed budget bytes 0 := by
  simp only [consumeCanonicalBytes, Option.bind_eq_bind, Option.bind_eq_some_iff, ensure_eq_some_iff, exists_const,
    Option.some.injEq, eq_comm (a := next)]
  rfl

theorem enterNode_eq_some_iff {depth : Nat} {budget next : Budget} : enterNode depth budget = some next ↔
    (budget.nodes + 1 ≤ maxCanonicalNodes ∧ depth ≤ maxCanonicalDepth) ∧ next = consumed budget 0 1 := by
  simp only [enterNode, Option.bind_eq_bind, Option.bind_eq_some_iff, ensure_eq_some_iff, exists_const,
    Option.some.injEq, eq_comm (a := next)]
  rfl

theorem jsonStringByteLength_text {s : JsString} (text : assertLosslessString s) :
    jsonStringByteLength s = byteLength (quote s) :=
  jsonStringByteLength_eq ((lossless_iff_wellFormed s).mp text.2.1)

theorem itemVisits_eq_map (vs : List JsValue) : itemVisits vs = vs.map canonicalizeAt := by
  induction vs with
  | nil => rfl
  | cons v vs ih =>
    rw [itemVisits, ih]
    rfl

theorem memberVisits_eq_mapValues (ms : List (JsString × JsValue)) :
    memberVisits ms = mapValues canonicalizeAt ms := by
  induction ms with
  | nil => rfl
  | cons m ms ih =>
    rw [memberVisits, ih]
    rfl

theorem runMembers_iff {ms : List (JsString × JsValue)}
    (accounts : ∀ v ∈ ms.map Prod.snd, Accounts policy canonicalizeAt v) {depth : Nat} {budget next : Budget}
    {ws : List (JsString × JsValue)} (fits : policy.Fits budget) :
    runMembers depth (mapValues canonicalizeAt ms) budget = some (ws, next) ↔
      ((∀ key ∈ ms.map Prod.fst, policy.key key) ∧ ∀ v ∈ ms.map Prod.snd, Accepted policy v depth) ∧
        ws = mapValues reparse ms ∧
        next = consumed budget (((ms.map Prod.fst).map keySize).sum + ((ms.map Prod.snd).map size).sum)
          ((ms.map Prod.snd).map nodes).sum ∧ policy.Fits next := by
  induction ms generalizing budget ws with
  | nil =>
    constructor
    · intro run
      cases run
      exact ⟨⟨fun _ never => (by cases never), fun _ never => (by cases never)⟩, rfl, rfl, fits⟩
    · rintro ⟨-, rfl, rfl, -⟩
      rfl
  | cons m ms ih =>
    obtain ⟨here, later⟩ := List.forall_mem_cons.mp accounts
    have shape (a b : Nat) : consumed (consumed (consumed budget (keySize m.1) 0) (size m.2) (nodes m.2)) a b =
        consumed budget (keySize m.1 + size m.2 + a) (nodes m.2 + b) := by
      rw [consumed_consumed, consumed_consumed, Nat.zero_add, Nat.add_assoc]
    have total : keySize m.1 + ((ms.map Prod.fst).map keySize).sum + (size m.2 + ((ms.map Prod.snd).map size).sum) =
        keySize m.1 + size m.2 + (((ms.map Prod.fst).map keySize).sum + ((ms.map Prod.snd).map size).sum) := by
      omega
    simp only [List.map_cons, List.forall_mem_cons, List.sum_cons]
    rw [total, ← shape]
    have whole : mapValues canonicalizeAt (m :: ms) = (m.1, canonicalizeAt m.2) :: mapValues canonicalizeAt ms := rfl
    rw [whole, runMembers]
    constructor
    · intro run
      obtain ⟨_, key, run⟩ := Option.bind_eq_some_iff.mp run
      obtain ⟨named, name, run⟩ := Option.bind_eq_some_iff.mp run
      obtain ⟨⟨w, middle⟩, visited, run⟩ := Option.bind_eq_some_iff.mp run
      obtain ⟨⟨ws', last⟩, rest, same⟩ := Option.bind_eq_some_iff.mp run
      cases same
      have key := ensure_eq_some_iff.mp key
      obtain ⟨bound, rfl⟩ := consumeCanonicalBytes_eq_some_iff.mp name
      rw [jsonStringByteLength_text key.1] at visited bound
      obtain ⟨accepted, rfl, rfl, within⟩ :=
        (here depth (consumed budget (keySize m.1) 0) w middle ⟨bound, fits.2⟩).mp visited
      obtain ⟨⟨keys, values⟩, rfl, rfl, within⟩ := (ih later within).mp rest
      exact ⟨⟨⟨key, keys⟩, accepted, values⟩, rfl, rfl, within⟩
    · rintro ⟨⟨⟨key, keys⟩, accepted, values⟩, rfl, rfl, within⟩
      have fits' : policy.Fits (consumed (consumed budget (keySize m.1) 0) (size m.2) (nodes m.2)) :=
        ⟨(Nat.le_add_right _ _).trans within.1, (Nat.le_add_right _ _).trans within.2⟩
      have named : policy.Fits (consumed budget (keySize m.1) 0) :=
        ⟨(Nat.le_add_right _ _).trans fits'.1, fits.2⟩
      have name : consumeCanonicalBytes budget (jsonStringByteLength m.1 + 1) =
          some (consumed budget (keySize m.1) 0) := by
        rw [consumeCanonicalBytes_eq_some_iff, jsonStringByteLength_text key.1]
        exact ⟨named.1, rfl⟩
      have visited := (here depth _ _ _ named).mpr ⟨accepted, rfl, rfl, fits'⟩
      have rest := (ih later fits').mpr ⟨⟨keys, values⟩, rfl, rfl, within⟩
      have checked : ProviderState.ensure (assertLosslessString m.1 ∧ sensitiveKeyPattern.test m.1 = false) =
          some () := ensure_pos key
      simp only [checked, name, visited, rest, Option.bind_eq_bind, Option.bind_some]
      rfl

/-- The steps of `canonicalize` that charge a budget. -/
theorem charges : Charges policy enterNode consumeCanonicalBytes :=
  ⟨fun _ _ _ => enterNode_eq_some_iff, fun _ _ _ => consumeCanonicalBytes_eq_some_iff⟩

theorem accounts_array {items : List JsValue} (ih : ∀ v ∈ items, Accounts policy canonicalizeAt v) :
    Accounts policy canonicalizeAt (.array items) := by
  refine charges.array ih ?_
  intro depth budget
  rw [canonicalizeAt, itemVisits_eq_map]
  rfl

theorem accounts_object {members : List (JsString × JsValue)}
    (ih : ∀ m ∈ members, Accounts policy canonicalizeAt m.2) : Accounts policy canonicalizeAt (.object members) := by
  have perm := sortByKey_perm members
  have keys := perm.map Prod.fst
  have values := perm.map Prod.snd
  refine @Charges.object _ _ _ _ charges members
    (fun depth => runMembers depth (mapValues canonicalizeAt (sortByKey members))) ?_ ?_
  · intro depth budget ws next fits
    have accounts : ∀ v ∈ (sortByKey members).map Prod.snd, Accounts policy canonicalizeAt v := by
      intro v inside
      exact forall_values.mpr ih v (values.mem_iff.mp inside)
    rw [runMembers_iff accounts fits, (keys.map keySize).sum_eq, (values.map size).sum_eq, (values.map nodes).sum_eq]
    simp only [keys.mem_iff, values.mem_iff]
  · intro depth budget
    rw [canonicalizeAt, memberVisits_eq_mapValues, mapValues_sortByKey]
    rfl

/-- What `canonicalize` does. -/
theorem accounts_canonicalizeAt (v : JsValue) : Accounts policy canonicalizeAt v := by
  induction v using JsValue.memberInduction with
  | null =>
    intro depth budget w next _
    rw [canonicalizeAt]
    exact charges.leaf_iff
  | bool b =>
    intro depth budget w next _
    rw [canonicalizeAt]
    exact charges.leaf_iff
  | string s =>
    intro depth budget w next _
    rw [canonicalizeAt, Accepted, size]
    by_cases text : assertLosslessString s
    · have checked : ProviderState.ensure (assertLosslessString s) = some () := ensure_pos text
      simp only [checked, Option.bind_eq_bind, Option.bind_some, jsonStringByteLength_text text]
      refine Iff.trans charges.leaf_iff ?_
      exact and_congr_left fun _ => ⟨fun deep => ⟨deep, text⟩, fun both => both.1⟩
    · have refused : ProviderState.ensure (assertLosslessString s) = none := ProviderState.ensure_neg text
      simp only [refused, Option.bind_eq_bind, Option.bind_none, Option.bind_fun_none]
      constructor
      · intro never
        cases never
      · rintro ⟨⟨-, never⟩, -⟩
        exact absurd never text
  | number n =>
    intro depth budget w next _
    cases n with
    | finite negative d =>
      rw [canonicalizeAt]
      exact charges.leaf_iff
    | nan =>
      rw [canonicalizeAt]
      · constructor
        · intro never
          cases never
        · rintro ⟨never, -⟩
          cases never
      · rintro _ _ ⟨⟩
    | infinity negative =>
      rw [canonicalizeAt]
      · constructor
        · intro never
          cases never
        · rintro ⟨never, -⟩
          cases never
      · rintro _ _ ⟨⟩
  | array items ih => exact accounts_array ih
  | object members ih => exact accounts_object ih

/-- A budget that is not within the limits accepts nothing. -/
theorem fits_of_canonicalizeAt {v : JsValue} {depth : Nat} {budget : Budget} {visited : JsValue × Budget}
    (run : canonicalizeAt v depth budget = some visited) : policy.Fits budget := by
  have entered {f : Budget → Option (JsValue × Budget)} (run : enterNode depth budget >>= f = some visited) :
      budget.nodes ≤ maxCanonicalNodes ∧ f (consumed budget 0 1) = some visited := by
    obtain ⟨_, enter, run⟩ := Option.bind_eq_some_iff.mp run
    obtain ⟨⟨count, -⟩, rfl⟩ := enterNode_eq_some_iff.mp enter
    exact ⟨(Nat.le_succ _).trans count, run⟩
  have charged {bytes : Nat} {f : Budget → Option (JsValue × Budget)}
      (run : consumeCanonicalBytes (consumed budget 0 1) bytes >>= f = some visited) :
      budget.bytes ≤ maxCanonicalBytes := by
    obtain ⟨_, consume, -⟩ := Option.bind_eq_some_iff.mp run
    exact (Nat.le_add_right _ _).trans (consumeCanonicalBytes_eq_some_iff.mp consume).1
  cases v with
  | null =>
    rw [canonicalizeAt] at run
    obtain ⟨count, run⟩ := entered run
    exact ⟨charged run, count⟩
  | bool b =>
    rw [canonicalizeAt] at run
    obtain ⟨count, run⟩ := entered run
    exact ⟨charged run, count⟩
  | string s =>
    rw [canonicalizeAt] at run
    obtain ⟨count, run⟩ := entered run
    obtain ⟨_, -, run⟩ := Option.bind_eq_some_iff.mp run
    exact ⟨charged run, count⟩
  | number n =>
    cases n with
    | finite negative d =>
      rw [canonicalizeAt] at run
      obtain ⟨count, run⟩ := entered run
      exact ⟨charged run, count⟩
    | nan => cases run
    | infinity negative => cases run
  | array items =>
    rw [canonicalizeAt] at run
    obtain ⟨count, run⟩ := entered run
    obtain ⟨_, -, run⟩ := Option.bind_eq_some_iff.mp run
    exact ⟨charged run, count⟩
  | object members =>
    rw [canonicalizeAt] at run
    obtain ⟨count, run⟩ := entered run
    obtain ⟨_, -, run⟩ := Option.bind_eq_some_iff.mp run
    obtain ⟨_, -, run⟩ := Option.bind_eq_some_iff.mp run
    exact ⟨charged run, count⟩

/-- The result of `canonicalize` is treated as the value was. -/
theorem canonicalizeAt_fixed {v w : JsValue} {depth : Nat} {budget next : Budget}
    (run : canonicalizeAt v depth budget = some (w, next)) (depth' : Nat) (budget' : Budget) :
    canonicalizeAt w depth' budget' = canonicalizeAt v depth' budget' := by
  by_cases fits : policy.Fits budget'
  · exact Accounts.fixed accounts_canonicalizeAt (fits_of_canonicalizeAt run) run depth' fits
  · have refused (u : JsValue) : canonicalizeAt u depth' budget' = none := by
      cases visited : canonicalizeAt u depth' budget' with
      | none => rfl
      | some _ => exact absurd (fits_of_canonicalizeAt visited) fits
    rw [refused, refused]

/-- The accounting of `canonicalize`: every step stays within the limit, the bytes of an accepted value are those
of the text of its result, and its result is a fixed point with the same budget. -/
theorem canonicalize_accounting :
    (∀ s, WellFormed s → jsonStringByteLength s = byteLength (stringify (.string s))) ∧
    (∀ budget bytes next, consumeCanonicalBytes budget bytes = some next →
      next.bytes = budget.bytes + bytes ∧ next.bytes ≤ maxCanonicalBytes) ∧
    (∀ depth budget next, enterNode depth budget = some next → next.bytes = budget.bytes) ∧
    ∀ v depth budget w next, canonicalizeAt v depth budget = some (w, next) →
      next.bytes = budget.bytes + byteLength (stringify w) ∧ next.bytes ≤ maxCanonicalBytes ∧
        canonicalizeAt w depth budget = some (w, next) ∧
        ∀ depth' budget', canonicalizeAt w depth' budget' = canonicalizeAt v depth' budget' := by
  refine ⟨?_, ?_, ?_, ?_⟩
  · intro s wellFormed
    exact jsonStringByteLength_eq wellFormed
  · intro budget bytes next consume
    obtain ⟨bound, rfl⟩ := consumeCanonicalBytes_eq_some_iff.mp consume
    exact ⟨rfl, bound⟩
  · intro depth budget next enter
    obtain ⟨-, rfl⟩ := enterNode_eq_some_iff.mp enter
    rfl
  · intro v depth budget w next run
    obtain ⟨-, -, bytes, within⟩ := (accounts_canonicalizeAt v).result (fits_of_canonicalizeAt run) run
    have fixed := canonicalizeAt_fixed run
    exact ⟨bytes, within.1, (fixed depth budget).trans run, fixed⟩

theorem canonicalizeAt_unsorted : canonicalizeAt unsortedObject 0 ⟨0, 0⟩ = some (sortedObject, ⟨23, 5⟩) := by rfl

/-- A string with escapes, and an object that is sorted. -/
theorem canonicalize_accounting_escapes :
    (jsonStringByteLength [0x22, 0xE9, 0x1F, 0xD83D, 0xDE00] = 2 + (2 + 2 + 6 + 4) ∧
      jsonStringByteLength [0x22, 0xE9, 0x1F, 0xD83D, 0xDE00] =
        byteLength (stringify (.string [0x22, 0xE9, 0x1F, 0xD83D, 0xDE00]))) ∧
    (consumeCanonicalBytes ⟨0, 1⟩ 4 = some ⟨4, 1⟩ ∧ 4 ≤ maxCanonicalBytes) ∧
    canonicalizeAt unsortedObject 0 ⟨0, 0⟩ = some (sortedObject, ⟨23, 5⟩) ∧ byteLength (stringify sortedObject) = 23 ∧
      canonicalizeAt sortedObject 0 ⟨0, 0⟩ = some (sortedObject, ⟨23, 5⟩) ∧
      canonicalizeAt sortedObject 2 ⟨100, 10⟩ = canonicalizeAt unsortedObject 2 ⟨100, 10⟩ := by
  obtain ⟨strings, consumes, -, values⟩ := canonicalize_accounting
  have escapes := strings [0x22, 0xE9, 0x1F, 0xD83D, 0xDE00] ⟨by decide, by decide, by decide, trivial⟩
  have charged : consumeCanonicalBytes ⟨0, 1⟩ 4 = some ⟨4, 1⟩ := rfl
  obtain ⟨bytes, -, fixed, same⟩ := values _ _ _ _ _ canonicalizeAt_unsorted
  rw [Nat.zero_add] at bytes
  exact ⟨⟨by decide, escapes⟩, ⟨charged, (consumes _ _ _ charged).2⟩, canonicalizeAt_unsorted, bytes.symm, fixed,
    same 2 ⟨100, 10⟩⟩

end PortableCodex.Journal
