import PortableCodex.Authority.OperationJson
import PortableCodex.CanonicalJson.Fields
import PortableCodex.CanonicalJson.Jsonb
import PortableCodex.CanonicalJson.Strings

/-!
The budget of operation JSON.

`canonicalJsonValue` consumes the length of the text of what it returns (`accounts_canonicalJsonValue`), so the
last check of `canonicalJsonObject` never fails.
-/

namespace PortableCodex.Authority

open Js CanonicalJson
open ProviderState (Budget byteLength byteLength_append byteLength_bracket ensure_eq_some_iff ensure_neg ensure_pos
  reparse reparse_array reparse_object)

/-! ### Strings -/

/-- A text that the kernel accepts. -/
def Text (s : JsString) : Prop := WellFormed s ∧ 0 ∉ s

/-- The limits and checks of `canonicalJsonValue`. -/
def policy : Policy where
  maxBytes := maxOperationJsonBytes
  maxNodes := maxOperationJsonNodes
  maxDepth := maxOperationJsonDepth
  text := Text
  key key := Text key ∧ isAllowedKey key

theorem consumeOperationJsonBytes_eq_some_iff {budget next : Budget} {bytes : Nat} :
    consumeOperationJsonBytes budget bytes = some next ↔
      budget.bytes + bytes ≤ maxOperationJsonBytes ∧ next = consumed budget bytes 0 := by
  simp only [consumeOperationJsonBytes, Option.bind_eq_bind, Option.bind_eq_some_iff, ensure_eq_some_iff, exists_const,
    Option.some.injEq, eq_comm (a := next)]
  rfl

theorem enterNode_eq_some_iff {depth : Nat} {budget next : Budget} : enterNode depth budget = some next ↔
    (budget.nodes + 1 ≤ maxOperationJsonNodes ∧ depth ≤ maxOperationJsonDepth) ∧ next = consumed budget 0 1 := by
  simp only [enterNode, Option.bind_eq_bind, Option.bind_eq_some_iff, ensure_eq_some_iff, exists_const,
    Option.some.injEq, eq_comm (a := next)]
  rfl

/-- The steps of `canonicalJsonValue` that charge a budget. -/
theorem charges : Charges policy enterNode consumeOperationJsonBytes :=
  ⟨fun _ _ _ => enterNode_eq_some_iff, fun _ _ _ => consumeOperationJsonBytes_eq_some_iff⟩

/-- A charge, then what can run after it. -/
theorem charge_bind_iff {A : Type} {budget : Budget} {bytes : Nat} {rest : Budget → Option A} {a : A} :
    (consumeOperationJsonBytes budget bytes >>= rest) = some a ↔
      budget.bytes + bytes ≤ maxOperationJsonBytes ∧ rest (consumed budget bytes 0) = some a := by
  constructor
  · intro run
    obtain ⟨_, charge, run⟩ := Option.bind_eq_some_iff.mp run
    obtain ⟨bound, rfl⟩ := consumeOperationJsonBytes_eq_some_iff.mp charge
    exact ⟨bound, run⟩
  · rintro ⟨bound, run⟩
    exact Option.bind_eq_some_iff.mpr ⟨_, consumeOperationJsonBytes_eq_some_iff.mpr ⟨bound, rfl⟩, run⟩

theorem ensure_bind_iff {A : Type} {p : Prop} [Decidable p] {rest : Unit → Option A} {a : A} :
    (ProviderState.ensure p >>= rest) = some a ↔ p ∧ rest () = some a := by
  by_cases holds : p
  · rw [ensure_pos holds, Option.bind_eq_bind, Option.bind_some, and_iff_right holds]
  · rw [ensure_neg holds, Option.bind_eq_bind, Option.bind_none]
    exact ⟨fun never => (by cases never), fun both => absurd both.1 holds⟩

/-- What a text consumes, unit by unit. -/
theorem consumeUnits_iff {s : JsString} {budget next : Budget} (fits : budget.bytes ≤ maxOperationJsonBytes) :
    consumeUnits s budget = some next ↔
      Text s ∧ budget.bytes + byteLength (quoteUnits s) ≤ maxOperationJsonBytes ∧
        next = consumed budget (byteLength (quoteUnits s)) 0 := by
  induction s, budget using consumeUnits.induct with
  | case1 budget =>
    rw [consumeUnits, Option.some.injEq, eq_comm]
    exact ⟨fun same => ⟨⟨trivial, List.not_mem_nil⟩, fits, same⟩, fun all => all.2.2⟩
  | case2 u budget =>
    rw [consumeUnits, ensure_bind_iff, consumeOperationJsonBytes_eq_some_iff, Text, WellFormed, List.mem_singleton]
    constructor
    · rintro ⟨⟨zero, high, low⟩, bound, rfl⟩
      rw [quoteUnits, byteLength_quoteUnit high low]
      exact ⟨⟨⟨high, low⟩, fun same => zero same.symm⟩, bound, rfl⟩
    · rintro ⟨⟨⟨high, low⟩, zero⟩, bound, rfl⟩
      rw [quoteUnits, byteLength_quoteUnit high low] at bound ⊢
      exact ⟨⟨fun same => zero same.symm, high, low⟩, bound, rfl⟩
  | case3 u v rest budget high ih =>
    have nonzero {w : UInt16} (surrogate : isHighSurrogate w = true ∨ isLowSurrogate w = true) : (0 : UInt16) ≠ w := by
      rintro rfl
      rcases surrogate with never | never <;> cases never
    rw [consumeUnits, if_pos high, ensure_bind_iff, charge_bind_iff, Text, WellFormed]
    by_cases low : isLowSurrogate v = true
    · have zeros : (0 : UInt16) ∉ u :: v :: rest ↔ 0 ∉ rest := by
        rw [List.mem_cons, List.mem_cons, or_iff_right (nonzero (.inl high)), or_iff_right (nonzero (.inr low))]
      have text : quoteUnits (u :: v :: rest) = u :: v :: quoteUnits rest := by
        rw [quoteUnits, high, low, Bool.and_self, if_pos rfl]
      rw [high, low, Bool.and_self, if_pos rfl, zeros, text, byteLength_pair high low]
      constructor
      · rintro ⟨-, bound, run⟩
        obtain ⟨accepted, within, rfl⟩ := (ih _ bound).mp run
        rw [consumed_consumed]
        exact ⟨accepted, by rw [← Nat.add_assoc]; exact within, rfl⟩
      · rintro ⟨accepted, within, rfl⟩
        rw [← Nat.add_assoc] at within
        have bound := (Nat.le_add_right _ _).trans within
        refine ⟨rfl, bound, (ih _ bound).mpr ⟨accepted, within, ?_⟩⟩
        rw [consumed_consumed]
    · rw [Bool.not_eq_true] at low
      rw [high, low, Bool.and_false, if_neg Bool.false_ne_true]
      constructor
      · rintro ⟨never, -⟩
        cases never
      · rintro ⟨⟨⟨⟨never, -⟩, -⟩, -⟩, -⟩
        cases never
  | case4 u v rest budget single ih =>
    rw [Bool.not_eq_true] at single
    rw [consumeUnits, if_neg (Bool.eq_false_iff.mp single), ensure_bind_iff, charge_bind_iff, Text, WellFormed, single,
      Bool.false_and, if_neg Bool.false_ne_true, quoteUnits, single, Bool.false_and, if_neg Bool.false_ne_true,
      byteLength_append _ (wellFormed_head (wellFormed_quoteUnits (v :: rest))), List.mem_cons, not_or]
    constructor
    · rintro ⟨⟨zero, low⟩, bound, run⟩
      obtain ⟨⟨wellFormed, later⟩, within, rfl⟩ := (ih _ bound).mp run
      rw [byteLength_quoteUnit single low, consumed_consumed]
      refine ⟨⟨⟨⟨rfl, low⟩, wellFormed⟩, fun same => zero same.symm, later⟩, ?_, rfl⟩
      rw [← Nat.add_assoc]
      exact within
    · rintro ⟨⟨⟨⟨-, low⟩, wellFormed⟩, zero, later⟩, within, rfl⟩
      rw [byteLength_quoteUnit single low, ← Nat.add_assoc] at within
      have bound := (Nat.le_add_right _ _).trans within
      refine ⟨⟨fun same => zero same.symm, low⟩, bound, (ih _ bound).mpr ⟨⟨wellFormed, later⟩, within, ?_⟩⟩
      rw [byteLength_quoteUnit single low, consumed_consumed]
      rfl

/-- What a string consumes. -/
theorem consumeOperationJsonString_iff {s : JsString} {budget next : Budget} :
    consumeOperationJsonString s budget = some next ↔
      Text s ∧ budget.bytes + byteLength (quote s) ≤ maxOperationJsonBytes ∧
        next = consumed budget (byteLength (quote s)) 0 := by
  have length : byteLength (quote s) = 2 + byteLength (quoteUnits s) := by
    rw [quote, byteLength_bracket _ (by decide) (by decide)]
  rw [consumeOperationJsonString, charge_bind_iff, length, ← Nat.add_assoc]
  constructor
  · rintro ⟨bound, run⟩
    obtain ⟨text, within, rfl⟩ := (consumeUnits_iff bound).mp run
    rw [consumed_consumed]
    exact ⟨text, within, rfl⟩
  · rintro ⟨text, within, rfl⟩
    have bound := (Nat.le_add_right _ _).trans within
    refine ⟨bound, (consumeUnits_iff bound).mpr ⟨text, within, ?_⟩⟩
    rw [consumed_consumed]

/-! ### Objects -/

/-- What the keys of an object consume. -/
theorem consumeKeys_iff {keys : List JsString} {budget next : Budget} (fits : budget.bytes ≤ maxOperationJsonBytes) :
    consumeKeys keys budget = some next ↔
      (∀ key ∈ keys, policy.key key) ∧ budget.bytes + (keys.map keySize).sum ≤ maxOperationJsonBytes ∧
        next = consumed budget (keys.map keySize).sum 0 := by
  induction keys generalizing budget with
  | nil =>
    rw [consumeKeys, Option.some.injEq, eq_comm]
    exact ⟨fun same => ⟨fun _ never => (by cases never), fits, same⟩, fun all => all.2.2⟩
  | cons key keys ih =>
    have total : byteLength (quote key) + (1 + (keys.map keySize).sum) = keySize key + (keys.map keySize).sum :=
      (Nat.add_assoc _ _ _).symm
    rw [consumeKeys, List.forall_mem_cons, List.map_cons, List.sum_cons]
    constructor
    · intro run
      obtain ⟨named, name, run⟩ := Option.bind_eq_some_iff.mp run
      obtain ⟨text, -, rfl⟩ := consumeOperationJsonString_iff.mp name
      obtain ⟨allowed, run⟩ := ensure_bind_iff.mp run
      obtain ⟨bound, run⟩ := charge_bind_iff.mp run
      obtain ⟨all, within, rfl⟩ := (ih bound).mp run
      rw [consumed_consumed, consumed_consumed, total]
      refine ⟨⟨⟨text, allowed⟩, all⟩, ?_, rfl⟩
      rw [← Nat.add_assoc]
      exact within
    · rintro ⟨⟨⟨text, allowed⟩, all⟩, within, rfl⟩
      rw [← Nat.add_assoc] at within
      have bound : budget.bytes + byteLength (quote key) + 1 ≤ maxOperationJsonBytes :=
        (Nat.le_add_right _ _).trans within
      have name := consumeOperationJsonString_iff.mpr ⟨text, (Nat.le_add_right _ _).trans bound, rfl⟩
      refine Option.bind_eq_some_iff.mpr ⟨_, name, ensure_bind_iff.mpr ⟨allowed, charge_bind_iff.mpr ⟨bound, ?_⟩⟩⟩
      refine (ih bound).mpr ⟨all, within, ?_⟩
      rw [consumed_consumed, consumed_consumed, total]

theorem runValues_iff {ms : List (JsString × JsValue)}
    (accounts : ∀ v ∈ ms.map Prod.snd, Accounts policy canonicalJsonValue v) {depth : Nat} {budget next : Budget}
    {ws : List (JsString × JsValue)} (fits : policy.Fits budget) :
    runValues depth (mapValues canonicalJsonValue ms) budget = some (ws, next) ↔
      (∀ v ∈ ms.map Prod.snd, Accepted policy v depth) ∧ ws = mapValues reparse ms ∧
        next = consumed budget ((ms.map Prod.snd).map size).sum ((ms.map Prod.snd).map nodes).sum ∧
        policy.Fits next := by
  induction ms generalizing budget ws with
  | nil =>
    constructor
    · intro run
      cases run
      exact ⟨fun _ never => (by cases never), rfl, rfl, fits⟩
    · rintro ⟨-, rfl, rfl, -⟩
      rfl
  | cons m ms ih =>
    obtain ⟨here, later⟩ := List.forall_mem_cons.mp accounts
    have whole : mapValues canonicalJsonValue (m :: ms) =
        (m.1, canonicalJsonValue m.2) :: mapValues canonicalJsonValue ms :=
      rfl
    simp only [List.map_cons, List.forall_mem_cons, List.sum_cons]
    rw [whole, runValues, ← consumed_consumed]
    constructor
    · intro run
      obtain ⟨⟨w, middle⟩, visited, run⟩ := Option.bind_eq_some_iff.mp run
      obtain ⟨⟨ws', last⟩, rest, same⟩ := Option.bind_eq_some_iff.mp run
      cases same
      obtain ⟨accepted, rfl, rfl, within⟩ := (here depth budget w middle fits).mp visited
      obtain ⟨values, rfl, rfl, within⟩ := (ih later within).mp rest
      exact ⟨⟨accepted, values⟩, rfl, rfl, within⟩
    · rintro ⟨⟨accepted, values⟩, rfl, rfl, within⟩
      have fits' : policy.Fits (consumed budget (size m.2) (nodes m.2)) :=
        ⟨(Nat.le_add_right _ _).trans within.1, (Nat.le_add_right _ _).trans within.2⟩
      have visited := (here depth _ _ _ fits).mpr ⟨accepted, rfl, rfl, fits'⟩
      have rest := (ih later fits').mpr ⟨values, rfl, rfl, within⟩
      simp only [visited, rest, Option.bind_eq_bind, Option.bind_some]
      rfl

theorem itemVisits_eq_map (vs : List JsValue) : itemVisits vs = vs.map canonicalJsonValue := by
  induction vs with
  | nil => rfl
  | cons v vs ih =>
    rw [itemVisits, ih]
    rfl

theorem memberVisits_eq_mapValues (ms : List (JsString × JsValue)) :
    memberVisits ms = mapValues canonicalJsonValue ms := by
  induction ms with
  | nil => rfl
  | cons m ms ih =>
    rw [memberVisits, ih]
    rfl

/-- What running over the members of an object does: first over the keys in their order, then over the values in the
order of the sorted keys. -/
theorem runObject_iff {members : List (JsString × JsValue)}
    (ih : ∀ m ∈ members, Accounts policy canonicalJsonValue m.2) {depth : Nat} {budget next : Budget}
    {ws : List (JsString × JsValue)} (fits : policy.Fits budget) :
    (consumeKeys (members.map Prod.fst) budget >>=
        runValues depth (mapValues canonicalJsonValue (sortByKey members))) = some (ws, next) ↔
      ((∀ key ∈ members.map Prod.fst, policy.key key) ∧ ∀ v ∈ members.map Prod.snd, Accepted policy v depth) ∧
        ws = mapValues reparse (sortByKey members) ∧
        next = consumed budget (((members.map Prod.fst).map keySize).sum + ((members.map Prod.snd).map size).sum)
          ((members.map Prod.snd).map nodes).sum ∧ policy.Fits next := by
  have values := (sortByKey_perm members).map Prod.snd
  have accounts : ∀ v ∈ (sortByKey members).map Prod.snd, Accounts policy canonicalJsonValue v := by
    intro v inside
    exact forall_values.mpr ih v (values.mem_iff.mp inside)
  constructor
  · intro run
    obtain ⟨_, keys, run⟩ := Option.bind_eq_some_iff.mp run
    obtain ⟨names, bound, rfl⟩ := (consumeKeys_iff fits.1).mp keys
    have fits' : policy.Fits (consumed budget ((members.map Prod.fst).map keySize).sum 0) := ⟨bound, fits.2⟩
    obtain ⟨accepted, rfl, rfl, within⟩ := (runValues_iff accounts fits').mp run
    simp only [values.mem_iff] at accepted
    rw [consumed_consumed, (values.map size).sum_eq, (values.map nodes).sum_eq, Nat.zero_add] at within ⊢
    exact ⟨⟨names, accepted⟩, rfl, rfl, within⟩
  · rintro ⟨⟨names, accepted⟩, rfl, rfl, within⟩
    have bound : budget.bytes + ((members.map Prod.fst).map keySize).sum ≤ maxOperationJsonBytes := by
      have whole : budget.bytes + (((members.map Prod.fst).map keySize).sum + ((members.map Prod.snd).map size).sum) ≤
        maxOperationJsonBytes := within.1
      omega
    have keys := (consumeKeys_iff fits.1).mpr ⟨names, bound, rfl⟩
    have fits' : policy.Fits (consumed budget ((members.map Prod.fst).map keySize).sum 0) := ⟨bound, fits.2⟩
    refine Option.bind_eq_some_iff.mpr ⟨_, keys, (runValues_iff accounts fits').mpr ?_⟩
    rw [consumed_consumed, (values.map size).sum_eq, (values.map nodes).sum_eq, Nat.zero_add]
    simp only [values.mem_iff]
    exact ⟨accepted, trivial, trivial, within⟩

/-! ### Values -/

/-- What `canonicalJsonValue` does. -/
theorem accounts_canonicalJsonValue (v : JsValue) : Accounts policy canonicalJsonValue v := by
  induction v using JsValue.memberInduction with
  | null =>
    intro depth budget w next _
    rw [canonicalJsonValue]
    exact charges.leaf_iff
  | bool b =>
    intro depth budget w next _
    rw [canonicalJsonValue]
    exact charges.leaf_iff
  | string s =>
    intro depth budget w next _
    rw [canonicalJsonValue, Accepted, size]
    constructor
    · intro run
      obtain ⟨_, enter, run⟩ := Option.bind_eq_some_iff.mp run
      obtain ⟨⟨count, deep⟩, rfl⟩ := enterNode_eq_some_iff.mp enter
      obtain ⟨_, consume, same⟩ := Option.bind_eq_some_iff.mp run
      obtain ⟨text, bound, rfl⟩ := consumeOperationJsonString_iff.mp consume
      cases same
      exact ⟨⟨deep, text⟩, rfl, by rw [consumed_consumed, Nat.zero_add]; rfl, bound, count⟩
    · rintro ⟨⟨deep, text⟩, rfl, rfl, within⟩
      have enter : enterNode depth budget = some (consumed budget 0 1) :=
        enterNode_eq_some_iff.mpr ⟨⟨within.2, deep⟩, rfl⟩
      have consume : consumeOperationJsonString s (consumed budget 0 1) =
          some (consumed (consumed budget 0 1) (byteLength (quote s)) 0) :=
        consumeOperationJsonString_iff.mpr ⟨text, within.1, rfl⟩
      refine Option.bind_eq_some_iff.mpr ⟨_, enter, Option.bind_eq_some_iff.mpr ⟨_, consume, ?_⟩⟩
      rw [consumed_consumed, Nat.zero_add]
      rfl
  | number n =>
    intro depth budget w next _
    cases n with
    | finite negative d =>
      have json : IsJson (.number (.finite (negative && d.mantissa != 0) d)) := trivial
      have text : stringifyNumber (.finite (negative && d.mantissa != 0) d) = stringifyNumber (.finite negative d) :=
        (stringifyNumber_settle (by rw [settleNumber, settleNumber, Bool.and_assoc, Bool.and_self]) json).2
      rw [canonicalJsonValue]
      simp only [text]
      exact charges.leaf_iff
    | nan =>
      rw [canonicalJsonValue]
      · constructor
        · intro never
          cases never
        · rintro ⟨never, -⟩
          cases never
      · rintro _ _ ⟨⟩
    | infinity negative =>
      rw [canonicalJsonValue]
      · constructor
        · intro never
          cases never
        · rintro ⟨never, -⟩
          cases never
      · rintro _ _ ⟨⟩
  | array items ih =>
    refine charges.array ih ?_
    intro depth budget
    rw [canonicalJsonValue, itemVisits_eq_map]
    rfl
  | object members ih =>
    refine @Charges.object _ _ _ _ charges members (fun depth budget => consumeKeys (members.map Prod.fst) budget >>=
      runValues depth (mapValues canonicalJsonValue (sortByKey members))) ?_ ?_
    · intro depth budget ws next fits
      exact runObject_iff ih fits
    · intro depth budget
      rw [canonicalJsonValue, memberVisits_eq_mapValues, mapValues_sortByKey]
      simp only [Option.bind_eq_bind, Option.bind_assoc]
      rfl

/-- What `canonicalJsonValue` returns, and what it has consumed for it. -/
theorem canonicalJsonValue_result {v w : JsValue} {depth : Nat} {budget next : Budget} (fits : policy.Fits budget)
    (run : canonicalJsonValue v depth budget = some (w, next)) :
    w = reparse v ∧ IsJson v ∧ next.bytes = budget.bytes + byteLength (stringify w) ∧ policy.Fits next :=
  (accounts_canonicalJsonValue v).result fits run

theorem fits_start : policy.Fits ⟨0, 0⟩ := ⟨Nat.zero_le _, Nat.zero_le _⟩

/-- The last check of `canonicalJsonObject` never fails. -/
theorem canonicalJsonObject_eq (v : JsValue) : canonicalJsonObject v =
    (canonicalJsonValue v 0 ⟨0, 0⟩).bind fun found => if isObject found.1 = true then some found.1 else none := by
  unfold canonicalJsonObject
  cases run : canonicalJsonValue v 0 ⟨0, 0⟩ with
  | none => rfl
  | some found =>
    obtain ⟨w, next⟩ := found
    obtain ⟨-, -, bytes, within⟩ := canonicalJsonValue_result fits_start run
    rw [Nat.zero_add] at bytes
    have last : byteLength (stringify w) = next.bytes ∧ byteLength (stringify w) ≤ maxOperationJsonBytes := by
      rw [← bytes]
      exact ⟨rfl, within.1⟩
    simp only [Option.bind_eq_bind, Option.bind_some, ensure_pos last]
    by_cases object : isObject w = true
    · rw [ensure_pos object, if_pos object]
      rfl
    · rw [ensure_neg object, if_neg object]
      rfl

/-- Operation JSON is a normal form: its text has the length that was charged, it is a fixed point, its texts are
equal for equal values only, and it is recovered from a `jsonb` column. -/
theorem operationJson_normalForm :
    (∀ v depth budget w next, policy.Fits budget → canonicalJsonValue v depth budget = some (w, next) →
      next.bytes = budget.bytes + byteLength (stringify w) ∧ policy.Fits next ∧
        canonicalJsonValue w depth budget = some (w, next)) ∧
    (∀ v, canonicalJsonObject v =
      (canonicalJsonValue v 0 ⟨0, 0⟩).bind fun found => if isObject found.1 = true then some found.1 else none) ∧
    (∀ v w depth depth' budget budget' v' w' next next', policy.Fits budget → policy.Fits budget' →
      canonicalJsonValue v depth budget = some (v', next) → canonicalJsonValue w depth' budget' = some (w', next') →
      (stringify v' = stringify w' ↔ Same v w)) ∧
    ∀ v depth budget w next u, policy.Fits budget → canonicalJsonValue v depth budget = some (w, next) → Stored w u →
      canonicalJsonValue u depth budget = some (w, next) := by
  refine ⟨?_, canonicalJsonObject_eq, ?_, ?_⟩
  · intro v depth budget w next fits run
    obtain ⟨-, -, bytes, within⟩ := canonicalJsonValue_result fits run
    exact ⟨bytes, within, (Accounts.fixed accounts_canonicalJsonValue fits run depth fits).trans run⟩
  · intro v w depth depth' budget budget' v' w' next next' fits fits' run run'
    obtain ⟨rfl, json, -⟩ := canonicalJsonValue_result fits run
    obtain ⟨rfl, json', -⟩ := canonicalJsonValue_result fits' run'
    constructor
    · exact stringify_reparse_inj json json'
    · intro same
      rw [same.reparse_eq json]
  · intro v depth budget w next u fits run stored
    have fixed := (Accounts.fixed accounts_canonicalJsonValue fits run depth fits).trans run
    obtain ⟨rfl, json, -⟩ := canonicalJsonValue_result fits run
    have settled := isJson_reparse json
    rw [← Accounts.same accounts_canonicalJsonValue (stored.same settled) settled depth fits, fixed]

/-- `{"b":[0.0,"é"],"a":true}` -/
def columnObject : JsValue :=
  .object [(js "b", .array [.number (.finite false .zero), .string [0xE9]]), (js "a", .bool true)]

theorem canonicalJsonValue_unsorted : canonicalJsonValue unsortedObject 0 ⟨0, 0⟩ = some (sortedObject, ⟨23, 5⟩) := by rfl

/-- A column may hold another literal of a number, and the members in another order. -/
theorem stored_sortedObject : Stored sortedObject columnObject := by
  have zero : Stored (.number (.finite false .zero)) (.number (.finite false .zero)) := by
    refine @Stored.number _ _ (js "0.0") 0 ?_ ?_ ?_
    · decide +kernel
    · decide +kernel
    · decide +kernel
  have items := Stored.array (.cons zero (.cons (.string [0xE9]) .nil))
  exact .object rfl (.cons (.bool true) (.cons items .nil)) (List.Perm.swap (js "b", _) (js "a", _) [])

/-- An accepted object, its text, and what a column gives back for it. -/
theorem operationJson_normalForm_accepted :
    canonicalJsonValue unsortedObject 0 ⟨0, 0⟩ = some (sortedObject, ⟨23, 5⟩) ∧ byteLength (stringify sortedObject) = 23 ∧
      canonicalJsonValue sortedObject 0 ⟨0, 0⟩ = some (sortedObject, ⟨23, 5⟩) ∧
      canonicalJsonObject unsortedObject = some sortedObject ∧ Same unsortedObject sortedObject ∧
      canonicalJsonValue columnObject 0 ⟨0, 0⟩ = some (sortedObject, ⟨23, 5⟩) := by
  obtain ⟨accounts, object, same, recovered⟩ := operationJson_normalForm
  have run := canonicalJsonValue_unsorted
  obtain ⟨bytes, -, fixed⟩ := accounts _ _ _ _ _ fits_start run
  rw [Nat.zero_add] at bytes
  refine ⟨run, bytes.symm, fixed, ?_, ?_, recovered _ _ _ _ _ _ fits_start run stored_sortedObject⟩
  · rw [object, run]
    rfl
  · exact (same _ _ _ _ _ _ _ _ _ _ fits_start fits_start run fixed).mp rfl

end PortableCodex.Authority
