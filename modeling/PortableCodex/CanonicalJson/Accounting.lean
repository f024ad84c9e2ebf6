import PortableCodex.CanonicalJson.Equality

/-!
What a canonicalizer consumes.

A canonicalizer walks a value within a budget of bytes and nodes. `Policy` has its limits and its checks of
texts, keys and depths. `Accounts` says all that it does: it accepts a value that the policy accepts and whose
text and nodes still fit into the budget, consumes exactly these, and returns the normal form. So it does the
same to all values that are the same (`Accounts.same`), its results among them (`Accounts.fixed`).
-/

namespace PortableCodex.CanonicalJson

open Js ProviderState

/-- The limits and the checks of a canonicalizer. -/
structure Policy where
  maxBytes : Nat
  maxNodes : Nat
  maxDepth : Nat
  text : JsString → Prop
  key : JsString → Prop

/-! ### The size of a value -/

mutual

/-- The bytes of the text of a value. -/
def size : JsValue → Nat
  | .null => 4
  | .bool b => if b then 4 else 5
  | .number n => byteLength (stringifyNumber n)
  | .string s => byteLength (quote s)
  | .array items => 2 + (items.length - 1) + sizeItems items
  | .object members => 2 + (members.length - 1) + sizeMembers members

def sizeItems : List JsValue → Nat
  | [] => 0
  | v :: vs => size v + sizeItems vs

def sizeMembers : List (JsString × JsValue) → Nat
  | [] => 0
  | (key, v) :: ms => byteLength (quote key) + 1 + size v + sizeMembers ms

end

mutual

def nodes : JsValue → Nat
  | .array items => 1 + nodesItems items
  | .object members => 1 + nodesMembers members
  | _ => 1

def nodesItems : List JsValue → Nat
  | [] => 0
  | v :: vs => nodes v + nodesItems vs

def nodesMembers : List (JsString × JsValue) → Nat
  | [] => 0
  | (_, v) :: ms => nodes v + nodesMembers ms

end

theorem sizeItems_eq_sum (vs : List JsValue) : sizeItems vs = (vs.map size).sum := by
  induction vs with
  | nil => rfl
  | cons v vs ih => rw [sizeItems, ih, List.map_cons, List.sum_cons]

theorem nodesItems_eq_sum (vs : List JsValue) : nodesItems vs = (vs.map nodes).sum := by
  induction vs with
  | nil => rfl
  | cons v vs ih => rw [nodesItems, ih, List.map_cons, List.sum_cons]

/-- The bytes of a key and its colon. -/
def keySize (key : JsString) : Nat := byteLength (quote key) + 1

theorem sizeMembers_eq_sum (ms : List (JsString × JsValue)) :
    sizeMembers ms = ((ms.map Prod.fst).map keySize).sum + ((ms.map Prod.snd).map size).sum := by
  induction ms with
  | nil => rfl
  | cons m ms ih =>
    simp only [sizeMembers, ih, List.map_cons, List.sum_cons, keySize]
    omega

theorem nodesMembers_eq_sum (ms : List (JsString × JsValue)) :
    nodesMembers ms = ((ms.map Prod.snd).map nodes).sum := by
  induction ms with
  | nil => rfl
  | cons m ms ih => simp only [nodesMembers, ih, List.map_cons, List.sum_cons]

theorem nodes_pos (v : JsValue) : 1 ≤ nodes v := by
  cases v with
  | array items => exact Nat.le_add_right _ _
  | object members => exact Nat.le_add_right _ _
  | null => exact Nat.le_refl _
  | bool b => exact Nat.le_refl _
  | number n => exact Nat.le_refl _
  | string s => exact Nat.le_refl _

theorem length_le_nodes (vs : List JsValue) : vs.length ≤ (vs.map nodes).sum := by
  induction vs with
  | nil => exact Nat.le_refl _
  | cons v vs ih =>
    have one := nodes_pos v
    rw [List.length_cons, List.map_cons, List.sum_cons]
    omega

/-- The size of a value is the length of its text. -/
theorem size_eq_byteLength (v : JsValue) : size v = byteLength (stringify v) := by
  induction v using JsValue.memberInduction with
  | null => rfl
  | bool b => cases b <;> rfl
  | number n => rfl
  | string s => rfl
  | array items ih =>
    have texts : (items.map size).sum = ((items.map stringify).map byteLength).sum := by
      rw [List.map_map]
      exact congrArg List.sum (List.map_congr_left ih)
    rw [size, stringify, byteLength_bracket _ (by decide) (by decide), byteLength_joinComma, sizeItems_eq_sum,
      stringifyItems_eq_map, List.length_map, texts]
    omega
  | object members ih =>
    have texts : sizeMembers members =
        ((members.map fun m => quote m.1 ++ 58 :: stringify m.2).map byteLength).sum := by
      induction members with
      | nil => rfl
      | cons m ms more =>
        obtain ⟨here, later⟩ := List.forall_mem_cons.mp ih
        rw [sizeMembers, more later, List.map_cons, List.map_cons, List.sum_cons, byteLength_member, here]
    rw [size, stringify, byteLength_bracket _ (by decide) (by decide), byteLength_joinComma, texts,
      stringifyMembers_eq_map, List.length_map]
    omega

/-! ### What a policy accepts -/

section Policies

variable (policy : Policy)

mutual

/-- A value at a depth that fits the policy but for its size. -/
def Accepted : JsValue → Nat → Prop
  | .string s, depth => depth ≤ policy.maxDepth ∧ policy.text s
  | .number (.finite _ _), depth => depth ≤ policy.maxDepth
  | .number _, _ => False
  | .array items, depth => depth ≤ policy.maxDepth ∧ AcceptedItems items (depth + 1)
  | .object members, depth =>
      depth ≤ policy.maxDepth ∧ (members.map Prod.fst).Nodup ∧ AcceptedMembers members (depth + 1)
  | _, depth => depth ≤ policy.maxDepth

def AcceptedItems : List JsValue → Nat → Prop
  | [], _ => True
  | v :: vs, depth => Accepted v depth ∧ AcceptedItems vs depth

def AcceptedMembers : List (JsString × JsValue) → Nat → Prop
  | [], _ => True
  | (key, v) :: ms, depth => (policy.key key ∧ Accepted v depth) ∧ AcceptedMembers ms depth

end

variable {policy}

theorem acceptedItems_iff {vs : List JsValue} {depth : Nat} :
    AcceptedItems policy vs depth ↔ ∀ v ∈ vs, Accepted policy v depth := by
  induction vs with
  | nil => exact ⟨fun _ _ never => (by cases never), fun _ => trivial⟩
  | cons v vs ih => rw [AcceptedItems, ih, List.forall_mem_cons]

theorem acceptedMembers_iff {ms : List (JsString × JsValue)} {depth : Nat} : AcceptedMembers policy ms depth ↔
    (∀ key ∈ ms.map Prod.fst, policy.key key) ∧ ∀ v ∈ ms.map Prod.snd, Accepted policy v depth := by
  induction ms with
  | nil => exact ⟨fun _ => ⟨fun _ never => (by cases never), fun _ never => (by cases never)⟩, fun _ => trivial⟩
  | cons m ms ih =>
    rw [AcceptedMembers, ih, List.map_cons, List.map_cons, List.forall_mem_cons, List.forall_mem_cons]
    tauto

theorem Accepted.isJson {v : JsValue} {depth : Nat} (accepted : Accepted policy v depth) : IsJson v := by
  induction v using JsValue.memberInduction generalizing depth with
  | null => trivial
  | bool b => trivial
  | string s => trivial
  | number n =>
    cases n with
    | finite negative d => trivial
    | nan => cases accepted
    | infinity negative => cases accepted
  | array items ih =>
    rw [isJson_array]
    intro v inside
    exact ih v inside (acceptedItems_iff.mp accepted.2 v inside)
  | object members ih =>
    obtain ⟨-, nodup, accepted⟩ := accepted
    rw [isJson_object]
    refine ⟨nodup, ?_⟩
    intro m inside
    exact ih m inside ((acceptedMembers_iff.mp accepted).2 m.2 (List.mem_map_of_mem inside))

theorem stringifyNumber_settle {n m : JsNumber} (settled : settleNumber n = settleNumber m)
    (finite : IsJson (.number n)) : IsJson (.number m) ∧ stringifyNumber n = stringifyNumber m := by
  cases n with
  | nan => cases finite
  | infinity negative => cases finite
  | finite negative d =>
    cases m with
    | nan => cases settled
    | infinity negative => cases settled
    | finite negative' d' =>
      refine ⟨trivial, ?_⟩
      obtain ⟨signs, rfl⟩ := JsNumber.finite.inj (JsValue.number.inj settled)
      rw [stringifyNumber, stringifyNumber]
      by_cases zero : d.mantissa = 0
      · rw [if_pos zero, if_pos zero]
      · have nonzero : (d.mantissa != 0) = true := bne_iff_ne.mpr zero
        rw [nonzero, Bool.and_true, Bool.and_true] at signs
        rw [signs]

theorem measures_of_forall₂ {vs ws : List JsValue} (all : List.Forall₂ Same vs ws) (json : ∀ v ∈ vs, IsJson v)
    (ih : ∀ v ∈ vs, ∀ w, Same v w → IsJson v →
      size v = size w ∧ nodes v = nodes w ∧ ∀ depth, Accepted policy v depth ↔ Accepted policy w depth) :
    vs.map size = ws.map size ∧ vs.map nodes = ws.map nodes ∧
      ∀ depth, (∀ v ∈ vs, Accepted policy v depth) ↔ ∀ w ∈ ws, Accepted policy w depth := by
  induction all with
  | nil => exact ⟨rfl, rfl, fun _ => Iff.rfl⟩
  | cons head _ more =>
    obtain ⟨first, rest⟩ := List.forall_mem_cons.mp json
    obtain ⟨here, later⟩ := List.forall_mem_cons.mp ih
    obtain ⟨bytes, count, accepted⟩ := here _ head first
    obtain ⟨sizes, counts, all⟩ := more rest later
    refine ⟨?_, ?_, ?_⟩
    · rw [List.map_cons, List.map_cons, bytes, sizes]
    · rw [List.map_cons, List.map_cons, count, counts]
    · intro depth
      rw [List.forall_mem_cons, List.forall_mem_cons, accepted depth, all depth]

/-- What a policy makes of a value depends on neither the order of its members nor the sign of zero. -/
theorem Same.measures {v w : JsValue} (same : Same v w) (json : IsJson v) :
    size v = size w ∧ nodes v = nodes w ∧ ∀ depth, Accepted policy v depth ↔ Accepted policy w depth := by
  induction v using JsValue.memberInduction generalizing w with
  | null =>
    cases same
    exact ⟨rfl, rfl, fun _ => Iff.rfl⟩
  | bool b =>
    cases same
    exact ⟨rfl, rfl, fun _ => Iff.rfl⟩
  | string s =>
    cases same
    exact ⟨rfl, rfl, fun _ => Iff.rfl⟩
  | number n =>
    cases same with
    | @number _ m settled =>
      obtain ⟨json', texts⟩ := stringifyNumber_settle settled json
      refine ⟨congrArg byteLength texts, rfl, ?_⟩
      intro depth
      cases n with
      | nan => cases json
      | infinity negative => cases json
      | finite negative d =>
        cases m with
        | nan => cases json'
        | infinity negative => cases json'
        | finite negative d => exact Iff.rfl
  | array items ih =>
    cases same with
    | @array _ ws all =>
      obtain ⟨sizes, counts, accepted⟩ := measures_of_forall₂ all (isJson_array.mp json)
        fun v inside w same json => ih v inside same json
      refine ⟨?_, ?_, ?_⟩
      · rw [size, size, sizeItems_eq_sum, sizeItems_eq_sum, sizes, all.length_eq]
      · rw [nodes, nodes, nodesItems_eq_sum, nodesItems_eq_sum, counts]
      · intro depth
        rw [Accepted, Accepted, acceptedItems_iff, acceptedItems_iff, accepted]
  | object members ih =>
    cases same with
    | @object _ middle ns keys all perm =>
      obtain ⟨nodup, json⟩ := isJson_object.mp json
      obtain ⟨sizes, counts, accepted⟩ := measures_of_forall₂ all (forall_values.mpr json)
        (forall_values.mpr fun m inside w same json => ih m inside same json)
      have names := perm.map Prod.fst
      have values := perm.map Prod.snd
      have length : members.length = ns.length := by
        rw [← perm.length_eq, ← List.length_map Prod.fst, keys, List.length_map]
      refine ⟨?_, ?_, ?_⟩
      · rw [size, size, sizeMembers_eq_sum, sizeMembers_eq_sum, sizes, keys, length, (names.map keySize).sum_eq,
          (values.map size).sum_eq]
      · rw [nodes, nodes, nodesMembers_eq_sum, nodesMembers_eq_sum, counts, (values.map nodes).sum_eq]
      · intro depth
        rw [Accepted, Accepted, acceptedMembers_iff, acceptedMembers_iff, accepted, keys, names.nodup_iff]
        simp only [names.mem_iff, values.mem_iff]

end Policies

/-! ### Canonicalizers -/

section Canonicalizers

variable {policy : Policy} {visit : JsValue → Visit}

/-- A budget within the limits. -/
def Policy.Fits (policy : Policy) (budget : Budget) : Prop :=
  budget.bytes ≤ policy.maxBytes ∧ budget.nodes ≤ policy.maxNodes

/-- The budget after a value. -/
def consumed (budget : Budget) (bytes nodes : Nat) : Budget := ⟨budget.bytes + bytes, budget.nodes + nodes⟩

theorem consumed_consumed (budget : Budget) (a b c d : Nat) :
    consumed (consumed budget a b) c d = consumed budget (a + c) (b + d) := by
  unfold consumed
  rw [Nat.add_assoc, Nat.add_assoc]

theorem Policy.Fits.less {budget : Budget} {a b c d : Nat} (fits : policy.Fits (consumed budget c d)) (bytes : a ≤ c)
    (count : b ≤ d) : policy.Fits (consumed budget a b) :=
  ⟨(Nat.add_le_add_left bytes _).trans fits.1, (Nat.add_le_add_left count _).trans fits.2⟩

/-- All that a canonicalizer does to a value. -/
def Accounts (policy : Policy) (visit : JsValue → Visit) (v : JsValue) : Prop :=
  ∀ depth budget w next, policy.Fits budget → (visit v depth budget = some (w, next) ↔
    Accepted policy v depth ∧ w = reparse v ∧ next = consumed budget (size v) (nodes v) ∧ policy.Fits next)

theorem runItems_iff {vs : List JsValue} (accounts : ∀ v ∈ vs, Accounts policy visit v) {depth : Nat}
    {budget next : Budget} {ws : List JsValue} (fits : policy.Fits budget) :
    runItems depth (vs.map visit) budget = some (ws, next) ↔
      (∀ v ∈ vs, Accepted policy v depth) ∧ ws = vs.map reparse ∧
        next = consumed budget (vs.map size).sum (vs.map nodes).sum ∧ policy.Fits next := by
  induction vs generalizing budget ws with
  | nil =>
    constructor
    · intro run
      cases run
      exact ⟨fun _ never => (by cases never), rfl, rfl, fits⟩
    · rintro ⟨-, rfl, rfl, -⟩
      rfl
  | cons v vs ih =>
    obtain ⟨here, later⟩ := List.forall_mem_cons.mp accounts
    rw [List.map_cons, List.map_cons, List.map_cons, List.map_cons, List.sum_cons, List.sum_cons,
      List.forall_mem_cons, ← consumed_consumed]
    constructor
    · intro run
      obtain ⟨⟨w, middle⟩, visited, run⟩ := Option.bind_eq_some_iff.mp run
      obtain ⟨⟨ws', last⟩, rest, same⟩ := Option.bind_eq_some_iff.mp run
      cases same
      obtain ⟨accepted, rfl, rfl, within⟩ := (here depth budget w middle fits).mp visited
      obtain ⟨all, rfl, rfl, within⟩ := (ih later within).mp rest
      exact ⟨⟨accepted, all⟩, rfl, rfl, within⟩
    · rintro ⟨⟨accepted, all⟩, rfl, rfl, within⟩
      have middle : policy.Fits (consumed budget (size v) (nodes v)) := by
        rw [consumed_consumed] at within
        exact within.less (Nat.le_add_right _ _) (Nat.le_add_right _ _)
      have visited := (here depth budget _ _ fits).mpr ⟨accepted, rfl, rfl, middle⟩
      have rest := (ih later middle).mpr ⟨all, rfl, rfl, within⟩
      simp only [runItems, visited, rest, Option.bind_eq_bind, Option.bind_some]

/-- The steps that enter a node and that consume bytes, within the limits. -/
structure Charges (policy : Policy) (enter : Nat → Budget → Option Budget) (consume : Budget → Nat → Option Budget) :
    Prop where
  enter_iff : ∀ depth budget next, enter depth budget = some next ↔
    (budget.nodes + 1 ≤ policy.maxNodes ∧ depth ≤ policy.maxDepth) ∧ next = consumed budget 0 1
  consume_iff : ∀ budget bytes next, consume budget bytes = some next ↔
    budget.bytes + bytes ≤ policy.maxBytes ∧ next = consumed budget bytes 0

section Steps

variable {enter : Nat → Budget → Option Budget} {consume : Budget → Nat → Option Budget}

/-- What a value without members consumes. -/
theorem Charges.leaf_iff (charges : Charges policy enter consume) {depth bytes : Nat} {budget next : Budget}
    {v w : JsValue} :
    (do
      let budget ← enter depth budget
      let budget ← consume budget bytes
      some (v, budget)) = some (w, next) ↔
      depth ≤ policy.maxDepth ∧ w = v ∧ next = consumed budget bytes 1 ∧ policy.Fits next := by
  constructor
  · intro run
    obtain ⟨entered, entry, run⟩ := Option.bind_eq_some_iff.mp run
    obtain ⟨⟨count, deep⟩, rfl⟩ := (charges.enter_iff _ _ _).mp entry
    obtain ⟨used, charge, same⟩ := Option.bind_eq_some_iff.mp run
    obtain ⟨bound, rfl⟩ := (charges.consume_iff _ _ _).mp charge
    cases same
    exact ⟨deep, rfl, by rw [consumed_consumed, Nat.zero_add], bound, count⟩
  · rintro ⟨deep, rfl, rfl, within⟩
    have entry := (charges.enter_iff depth budget _).mpr ⟨⟨within.2, deep⟩, rfl⟩
    have charge := (charges.consume_iff (consumed budget 0 1) bytes _).mpr ⟨within.1, rfl⟩
    rw [consumed_consumed, Nat.zero_add] at charge
    simp only [entry, charge, Option.bind_eq_bind, Option.bind_some, Nat.add_zero]

/-- What the frame of an array or an object consumes, before its members. -/
theorem Charges.frame_iff (charges : Charges policy enter consume) {depth count bytes : Nat} {budget framed : Budget} :
    (do
      let budget ← enter depth budget
      ensure (count + budget.nodes ≤ policy.maxNodes)
      consume budget bytes) = some framed ↔
      depth ≤ policy.maxDepth ∧ count + (budget.nodes + 1) ≤ policy.maxNodes ∧
        budget.bytes + bytes ≤ policy.maxBytes ∧ framed = consumed budget bytes 1 := by
  constructor
  · intro run
    obtain ⟨entered, entry, run⟩ := Option.bind_eq_some_iff.mp run
    obtain ⟨⟨-, deep⟩, rfl⟩ := (charges.enter_iff _ _ _).mp entry
    obtain ⟨_, fits, charge⟩ := Option.bind_eq_some_iff.mp run
    obtain ⟨bound, rfl⟩ := (charges.consume_iff _ _ _).mp charge
    exact ⟨deep, ensure_eq_some_iff.mp fits, bound, by rw [consumed_consumed, Nat.zero_add]⟩
  · rintro ⟨deep, fits, bound, rfl⟩
    have entry := (charges.enter_iff depth budget _).mpr ⟨⟨(Nat.le_add_left _ _).trans fits, deep⟩, rfl⟩
    have checked : ensure (count + (consumed budget 0 1).nodes ≤ policy.maxNodes) = some () := ensure_pos fits
    have charge := (charges.consume_iff (consumed budget 0 1) bytes _).mpr ⟨bound, rfl⟩
    rw [consumed_consumed, Nat.zero_add] at charge
    simp only [entry, checked, charge, Option.bind_eq_bind, Option.bind_some, Nat.add_zero]

theorem Charges.array (charges : Charges policy enter consume) {items : List JsValue}
    (ih : ∀ v ∈ items, Accounts policy visit v)
    (shape : ∀ depth budget, visit (.array items) depth budget = (do
      let budget ← enter depth budget
      ensure (items.length + budget.nodes ≤ policy.maxNodes)
      let budget ← consume budget (2 + (items.length - 1))
      let (items, budget) ← runItems (depth + 1) (items.map visit) budget
      some (.array items, budget))) : Accounts policy visit (.array items) := by
  intro depth budget w next fits
  have framed : visit (.array items) depth budget = ((do
      let budget ← enter depth budget
      ensure (items.length + budget.nodes ≤ policy.maxNodes)
      consume budget (2 + (items.length - 1))) >>= fun budget => (do
        let (items, budget) ← runItems (depth + 1) (items.map visit) budget
        some (.array items, budget))) := by
    rw [shape]
    simp only [Option.bind_eq_bind, Option.bind_assoc]
  have bytes : size (.array items) = 2 + (items.length - 1) + (items.map size).sum := by
    rw [size, sizeItems_eq_sum]
  have count : nodes (.array items) = 1 + (items.map nodes).sum := by rw [nodes, nodesItems_eq_sum]
  have length := length_le_nodes items
  rw [framed, Accepted, acceptedItems_iff, reparse_array, bytes, count, ← consumed_consumed]
  constructor
  · intro run
    obtain ⟨framed, frame, run⟩ := Option.bind_eq_some_iff.mp run
    obtain ⟨⟨ws, last⟩, visited, same⟩ := Option.bind_eq_some_iff.mp run
    obtain ⟨deep, room, bound, rfl⟩ := charges.frame_iff.mp frame
    cases same
    obtain ⟨accepted, rfl, rfl, within⟩ :=
      (runItems_iff ih ⟨bound, (Nat.le_add_left _ _).trans room⟩).mp visited
    exact ⟨⟨deep, accepted⟩, rfl, rfl, within⟩
  · rintro ⟨⟨deep, accepted⟩, rfl, rfl, within⟩
    have total : budget.nodes + 1 + (items.map nodes).sum ≤ policy.maxNodes := within.2
    have fits' : policy.Fits (consumed budget (2 + (items.length - 1)) 1) :=
      ⟨(Nat.le_add_right _ _).trans within.1, (Nat.le_add_right _ _).trans within.2⟩
    have frame := charges.frame_iff.mpr ⟨deep, (by omega : items.length + (budget.nodes + 1) ≤ policy.maxNodes),
      fits'.1, rfl⟩
    have visited := (runItems_iff ih fits').mpr ⟨accepted, rfl, rfl, within⟩
    rw [frame, Option.bind_eq_bind, Option.bind_some, visited]
    rfl

/-- An object, by what running over its members does. -/
theorem Charges.object (charges : Charges policy enter consume) {members : List (JsString × JsValue)}
    {run : Nat → Budget → Option (List (JsString × JsValue) × Budget)}
    (runs : ∀ depth budget ws next, policy.Fits budget → (run depth budget = some (ws, next) ↔
      ((∀ key ∈ members.map Prod.fst, policy.key key) ∧ ∀ v ∈ members.map Prod.snd, Accepted policy v depth) ∧
        ws = mapValues reparse (sortByKey members) ∧
        next = consumed budget (((members.map Prod.fst).map keySize).sum + ((members.map Prod.snd).map size).sum)
          ((members.map Prod.snd).map nodes).sum ∧ policy.Fits next))
    (shape : ∀ depth budget, visit (.object members) depth budget = (do
      let budget ← enter depth budget
      ensure (members.map Prod.fst).Nodup
      ensure (members.length + budget.nodes ≤ policy.maxNodes)
      let budget ← consume budget (2 + (members.length - 1))
      let (members, budget) ← run (depth + 1) budget
      some (.object (ofEntries members), budget))) : Accounts policy visit (.object members) := by
  intro depth budget w next fits
  have bytes : size (.object members) = 2 + (members.length - 1) +
      (((members.map Prod.fst).map keySize).sum + ((members.map Prod.snd).map size).sum) := by
    rw [size, sizeMembers_eq_sum]
  have count : nodes (.object members) = 1 + ((members.map Prod.snd).map nodes).sum := by
    rw [nodes, nodesMembers_eq_sum]
  have length : members.length ≤ ((members.map Prod.snd).map nodes).sum := by
    have bound := length_le_nodes (members.map Prod.snd)
    rwa [List.length_map] at bound
  have result : reparse (.object members) = .object (ofEntries (mapValues reparse (sortByKey members))) := by
    rw [reparse_object, mapValues_sortByKey]
  rw [Accepted, acceptedMembers_iff, result, bytes, count, ← consumed_consumed]
  by_cases nodup : (members.map Prod.fst).Nodup
  · have checked : ensure (members.map Prod.fst).Nodup = some () := ensure_pos nodup
    have framed : visit (.object members) depth budget = ((do
        let budget ← enter depth budget
        ensure (members.length + budget.nodes ≤ policy.maxNodes)
        consume budget (2 + (members.length - 1))) >>= fun budget => (do
          let (members, budget) ← run (depth + 1) budget
          some (.object (ofEntries members), budget))) := by
      rw [shape]
      simp only [checked, Option.bind_eq_bind, Option.bind_some, Option.bind_assoc]
    rw [framed]
    constructor
    · intro visited
      obtain ⟨framed, frame, visited⟩ := Option.bind_eq_some_iff.mp visited
      obtain ⟨⟨ws, last⟩, ran, same⟩ := Option.bind_eq_some_iff.mp visited
      obtain ⟨deep, room, bound, rfl⟩ := charges.frame_iff.mp frame
      cases same
      obtain ⟨all, rfl, rfl, within⟩ := (runs _ _ _ _ ⟨bound, (Nat.le_add_left _ _).trans room⟩).mp ran
      exact ⟨⟨deep, nodup, all⟩, rfl, rfl, within⟩
    · rintro ⟨⟨deep, -, all⟩, rfl, rfl, within⟩
      have total : budget.nodes + 1 + ((members.map Prod.snd).map nodes).sum ≤ policy.maxNodes := within.2
      have fits' : policy.Fits (consumed budget (2 + (members.length - 1)) 1) :=
        ⟨(Nat.le_add_right _ _).trans within.1, (Nat.le_add_right _ _).trans within.2⟩
      have frame := charges.frame_iff.mpr
        ⟨deep, (by omega : members.length + (budget.nodes + 1) ≤ policy.maxNodes), fits'.1, rfl⟩
      have ran := (runs _ _ _ _ fits').mpr ⟨all, rfl, rfl, within⟩
      rw [frame, Option.bind_eq_bind, Option.bind_some, ran]
      rfl
  · have refused : ensure (members.map Prod.fst).Nodup = none := ensure_neg nodup
    rw [shape]
    simp only [refused, Option.bind_eq_bind, Option.bind_none, Option.bind_fun_none]
    constructor
    · intro never
      cases never
    · rintro ⟨⟨-, never, -⟩, -⟩
      exact absurd never nodup

end Steps

/-- The result of a canonicalizer, and what it has consumed for it. -/
theorem Accounts.result {v w : JsValue} {depth : Nat} {budget next : Budget} (accounts : Accounts policy visit v)
    (fits : policy.Fits budget) (h : visit v depth budget = some (w, next)) :
    w = reparse v ∧ IsJson v ∧ next.bytes = budget.bytes + byteLength (stringify w) ∧ policy.Fits next := by
  obtain ⟨accepted, rfl, rfl, within⟩ := (accounts depth budget w next fits).mp h
  have json := accepted.isJson
  refine ⟨rfl, json, ?_, within⟩
  rw [← size_eq_byteLength, ← (@Same.measures policy _ _ (same_reparse json) json).1]
  rfl

/-- A canonicalizer does the same to values that are the same. -/
theorem Accounts.same {v w : JsValue} (accounts : ∀ v, Accounts policy visit v) (same : Same v w) (json : IsJson v)
    (depth : Nat) {budget : Budget} (fits : policy.Fits budget) : visit v depth budget = visit w depth budget := by
  obtain ⟨bytes, count, accepted⟩ := @Same.measures policy _ _ same json
  have normal := same.reparse_eq json
  apply Option.ext
  rintro ⟨result, next⟩
  rw [accounts v depth budget result next fits, accounts w depth budget result next fits, bytes, count, accepted,
    normal]

/-- The result of a canonicalizer is treated as the value was. -/
theorem Accounts.fixed {v w : JsValue} {depth : Nat} {budget next : Budget}
    (accounts : ∀ v, Accounts policy visit v) (fits : policy.Fits budget)
    (h : visit v depth budget = some (w, next)) (depth' : Nat) {budget' : Budget} (fits' : policy.Fits budget') :
    visit w depth' budget' = visit v depth' budget' := by
  obtain ⟨rfl, json, -⟩ := (accounts v).result fits h
  exact (Accounts.same accounts (same_reparse json) json depth' fits').symm

end Canonicalizers

end PortableCodex.CanonicalJson
