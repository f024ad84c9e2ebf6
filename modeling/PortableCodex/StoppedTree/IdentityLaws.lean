import PortableCodex.StoppedTree.DigestLaws
import PortableCodex.StoppedTree.Identities

/-!
What the digest of the identities of a tree says, and what it rejects.

An accepted walk binds the objects of the tree one after the other (`collect_walks`). Bindings are never
lost, also not by a call that fails (`collect_extends`), so all objects of all accepted calls that share a map
have one persistent ID for each object and one object for each persistent ID (`unaliased_of_shared`).
-/

namespace PortableCodex.StoppedTree

open Js
open ProviderState (IsOpaqueId)

/-! ### Keys -/

theorem fileIdentityKey_injective {identity other : FileIdentity} (same : fileIdentityKey identity = fileIdentityKey other) :
    identity = other := by
  have noColon (n : Nat) : (58 : UInt16) ∉ decimal n := by
    intro member
    exact absurd (decimal_all_digits n 58 member) (by decide)
  obtain ⟨dev, ino⟩ := split_unique (noColon _) (noColon _) same
  obtain ⟨d, i⟩ := identity
  obtain ⟨d', i'⟩ := other
  obtain rfl := decimal_injective dev
  obtain rfl := decimal_injective ino
  rfl

theorem runtimeKey_ne_persistentKey (runtime persistent : JsString) : runtimeKey runtime ≠ persistentKey persistent := by
  intro same
  exact absurd (List.cons.inj same).1 (by decide)

/-- No separator in an opaque ID. -/
theorem separator_notMem {s : JsString} (valid : IsOpaqueId s) : (0 : UInt16) ∉ s := by
  cases s with
  | nil => exact valid.elim
  | cons u rest =>
    obtain ⟨first, -, others⟩ := valid
    intro member
    rcases List.mem_cons.mp member with rfl | member
    · exact absurd first (by decide)
    · exact absurd (others 0 member) (by decide)

theorem wellFormed_opaque {s : JsString} (ascii : ∀ u ∈ s, isOpaqueUnit u = true) : WellFormed s := by
  refine wellFormed_of_ascii fun u member => ?_
  have unit := ascii u member
  simp only [isOpaqueUnit, isAlphanumeric, isDigit, decide_eq_true_eq] at unit
  rcases unit with letter | rfl | rfl | rfl | rfl
  · omega
  all_goals decide

theorem opaque_units {u : UInt16} {rest : JsString} (first : isAlphanumeric u = true)
    (others : ∀ v ∈ rest, isOpaqueUnit v = true) : ∀ v ∈ u :: rest, isOpaqueUnit v = true := by
  rw [List.forall_mem_cons]
  exact ⟨by simp [isOpaqueUnit, first], others⟩

namespace IdentityContext

variable {context : IdentityContext}

/-! ### Bindings -/

/-- What both outcomes of a step leave. -/
def left : Except Identities Identities → Identities
  | .ok s => s
  | .error s => s

/-- No binding is lost. -/
def Extends (before after : ObjectIds) : Prop := ∀ key value, before.get? key = some value → after.get? key = some value

theorem Extends.refl (objectIds : ObjectIds) : Extends objectIds objectIds := fun _ _ found => found

theorem Extends.trans {first second third : ObjectIds} (h : Extends first second) (h' : Extends second third) :
    Extends first third := fun key value found => h' key value (h key value found)

/-- An object and its persistent ID, as a map has them. -/
structure Bound (objectIds : ObjectIds) (runtimeIdentity persistentIdentity : JsString) : Prop where
  persistent : objectIds.get? (persistentKey persistentIdentity) = some runtimeIdentity
  runtime : objectIds.get? (runtimeKey runtimeIdentity) = some persistentIdentity

theorem Bound.mono {before after : ObjectIds} {runtimeIdentity persistentIdentity : JsString}
    (bound : Bound before runtimeIdentity persistentIdentity) (more : Extends before after) :
    Bound after runtimeIdentity persistentIdentity :=
  ⟨more _ _ bound.persistent, more _ _ bound.runtime⟩

theorem bind_spec {objectIds : ObjectIds} {runtimeIdentity persistentIdentity : JsString}
    (unaliased : Unaliased objectIds runtimeIdentity persistentIdentity) :
    Extends objectIds ((objectIds.set (persistentKey persistentIdentity) runtimeIdentity).set
      (runtimeKey runtimeIdentity) persistentIdentity) ∧
    Bound ((objectIds.set (persistentKey persistentIdentity) runtimeIdentity).set
      (runtimeKey runtimeIdentity) persistentIdentity) runtimeIdentity persistentIdentity := by
  have other := runtimeKey_ne_persistentKey runtimeIdentity persistentIdentity
  refine ⟨?_, ?_, ?_⟩
  · intro key value found
    rw [JsMap.get?_set]
    split
    · rename_i same
      subst same
      rw [unaliased.2 value found]
    · rw [JsMap.get?_set]
      split
      · rename_i same
        subst same
        rw [unaliased.1 value found]
      · exact found
  · rw [JsMap.get?_set, if_neg other.symm, JsMap.get?_set, if_pos rfl]
  · rw [JsMap.get?_set, if_pos rfl]

theorem collectObject_extends (path : List JsString) (kind : Option JsString) (s : Identities) :
    Extends s.objectIds (left (context.collectObject path kind s)).objectIds := by
  unfold collectObject
  split
  · exact .refl _
  split
  · exact .refl _
  simp only
  split
  · rename_i unaliased
    cases kind with
    | none => exact (bind_spec unaliased).1
    | some kind => exact (bind_spec unaliased).1
  · exact .refl _

/-- What an accepted object is bound to. -/
theorem collectObject_ok {path : List JsString} {kind : Option JsString} {s after : Identities}
    (h : context.collectObject path kind s = .ok after) :
    ∃ text objectId, kind = some text ∧ context.inspectStoppedTreeObjectIdentity path = some objectId ∧
      after.tuples = s.tuples ++ [{ path := List.intercalate [47] path.reverse, kind := text, objectId }] ∧
      Bound after.objectIds (fileIdentityKey (context.lstat path)) (context.persistentIdentityKey objectId) := by
  unfold collectObject at h
  split at h
  · cases h
  split at h
  · cases h
  rename_i objectId inspected
  simp only at h
  split at h
  · rename_i unaliased
    cases kind with
    | none => cases h
    | some text =>
      obtain rfl := Except.ok.inj h
      exact ⟨text, objectId, rfl, inspected, rfl, (bind_spec unaliased).2⟩
  · cases h

/-! ### Walks -/

/-- The entries of a directory under their texts. -/
def keyed (entries : Entries) : List (JsString × Node) := entries.toList.map fun entry => (decodeUtf8 entry.1, entry.2)

theorem walks_eq (entries : Entries) :
    entries.walks = (keyed entries).map fun entry => (entry.1, entry.2.preorder) := by
  cases entries with
  | nil =>
    rw [Entries.walks]
    rfl
  | cons name node rest =>
    rw [Entries.walks, walks_eq rest]
    rfl

theorem collectEntries_eq (path : List JsString) (entries : Entries) : context.collectEntries path entries =
    (keyed entries).map fun entry => (entry.1, context.collectPersistentTreeIdentities (entry.1 :: path) entry.2) := by
  cases entries with
  | nil =>
    rw [collectEntries]
    rfl
  | cons name node rest =>
    rw [collectEntries, collectEntries_eq path rest]
    rfl

theorem distinct_iff (entries : Entries) : entries.Distinct ↔ ∀ entry ∈ keyed entries, entry.2.Distinct := by
  cases entries with
  | nil =>
    rw [Entries.Distinct]
    exact ⟨fun _ _ never => (by cases never), fun _ => trivial⟩
  | cons name node rest =>
    have split : keyed (.cons name node rest) = (decodeUtf8 name, node) :: keyed rest := rfl
    rw [Entries.Distinct, distinct_iff rest, split, List.forall_mem_cons]

theorem foldlM_extends {entries : List (JsString × Collects)}
    (steps : ∀ entry ∈ entries, ∀ s, Extends s.objectIds (left (entry.2 s)).objectIds) (s : Identities) :
    Extends s.objectIds (left (entries.foldlM (fun s entry => entry.2 s) s)).objectIds := by
  induction entries generalizing s with
  | nil => exact .refl _
  | cons entry entries ih =>
    rw [List.forall_mem_cons] at steps
    have first := steps.1 s
    rw [List.foldlM_cons]
    cases result : entry.2 s with
    | error after =>
      rw [result] at first
      exact first
    | ok after =>
      rw [result] at first
      exact first.trans (ih steps.2 after)

mutual

/-- A walk loses no binding, whether it succeeds or fails. -/
theorem collect_extends : ∀ (path : List JsString) (node : Node) (s : Identities),
    Extends s.objectIds (left (context.collectPersistentTreeIdentities path node s)).objectIds
  | path, .directory mode entries, s => by
    have first := @collectObject_extends context path (Node.directory mode entries).kind s
    simp only [collectPersistentTreeIdentities]
    cases result : context.collectObject path (Node.directory mode entries).kind s with
    | error after =>
      rw [result] at first
      exact first
    | ok after =>
      rw [result] at first
      refine first.trans ?_
      simp only [bind, Except.bind]
      cases read : readPortableDirectory context.unicode entries with
      | none => exact .refl _
      | some names =>
        apply foldlM_extends
        intro entry member
        exact collectEntries_extends path entries entry ((sortByKey_perm _).mem_iff.mp member)
  | path, .file mode nlink bytes, s => by
    rw [collectPersistentTreeIdentities]
    exact collectObject_extends path _ s
  | path, .symlink nlink target, s => by
    rw [collectPersistentTreeIdentities]
    exact collectObject_extends path _ s
  | path, .special, s => by
    rw [collectPersistentTreeIdentities]
    exact collectObject_extends path _ s

theorem collectEntries_extends : ∀ (path : List JsString) (entries : Entries),
    ∀ entry ∈ context.collectEntries path entries, ∀ s, Extends s.objectIds (left (entry.2 s)).objectIds
  | path, .nil => by
    rw [collectEntries]
    intro entry never
    cases never
  | path, .cons name node rest => by
    rw [collectEntries, List.forall_mem_cons]
    exact ⟨fun s => collect_extends _ node s, collectEntries_extends path rest⟩

end

theorem decoded_of_read {unicode : Unicode} {entries : Entries} {names : List JsString}
    (read : readPortableDirectory unicode entries = some names) (entry : Bytes × Node)
    (member : entry ∈ entries.toList) : decodePortablePathBytes entry.1 = some (decodeUtf8 entry.1) := by
  have all := mapM_eq_some_iff.mp (readPortableDirectory_eq_some.mp read).1
  have listed : entry.1 ∈ entries.toList.map Prod.fst := List.mem_map_of_mem member
  clear read
  generalize entries.toList.map Prod.fst = raw at all listed
  induction all with
  | nil => cases listed
  | cons first _ ih =>
    rcases List.mem_cons.mp listed with same | later
    · rw [same, (decodePortablePathBytes_eq_some.mp first).1]
      exact first
    · exact ih later

/-- What is done for one visit of a walk. -/
def visitObject (context : IdentityContext) (path : List JsString) (s : Identities) (visit : Below × Node) :
    Except Identities Identities :=
  context.collectObject (visit.1.reverse ++ path) visit.2.kind s

theorem visitObject_prepend (path : List JsString) (name : JsString) (s : Identities) (visit : Below × Node) :
    context.visitObject path s (prepend name visit) = context.visitObject (name :: path) s visit := by
  simp [visitObject, prepend]

/-- Collecting the object is walking below it. -/
def Walks (context : IdentityContext) (node : Node) : Prop := ∀ path s after,
  context.collectPersistentTreeIdentities path node s = .ok after →
    node.preorder.foldlM (context.visitObject path) s = .ok after ∧ node.Distinct ∧
      ∀ visit ∈ node.preorder, ∀ component ∈ visit.1, IsComponent component

theorem Walks.object {node : Node} (single : node.preorder = [([], node)]) (distinct : node.Distinct)
    (object : ∀ path, context.collectPersistentTreeIdentities path node = context.collectObject path node.kind) :
    context.Walks node := by
  intro path s after h
  rw [object] at h
  rw [single]
  refine ⟨?_, distinct, ?_⟩
  · rw [List.foldlM_cons, visitObject]
    simp only [List.reverse_nil, List.nil_append, h]
    rfl
  · intro visit member
    obtain rfl := List.mem_singleton.mp member
    exact fun _ never => (by cases never)

theorem foldlM_walks {entries : List (JsString × Node)} (walks : ∀ entry ∈ entries, context.Walks entry.2)
    {path : List JsString} {s after : Identities}
    (h : entries.foldlM (fun s entry => context.collectPersistentTreeIdentities (entry.1 :: path) entry.2 s) s =
      .ok after) :
    (entries.flatMap fun entry => entry.2.preorder.map (prepend entry.1)).foldlM (context.visitObject path) s =
        .ok after ∧
      ∀ entry ∈ entries, entry.2.Distinct ∧
        ∀ visit ∈ entry.2.preorder, ∀ component ∈ visit.1, IsComponent component := by
  induction entries generalizing s with
  | nil => exact ⟨h, fun _ never => (by cases never)⟩
  | cons entry entries ih =>
    rw [List.forall_mem_cons] at walks
    rw [List.foldlM_cons] at h
    cases first : context.collectPersistentTreeIdentities (entry.1 :: path) entry.2 s with
    | error failed =>
      rw [first] at h
      cases h
    | ok middle =>
      rw [first] at h
      obtain ⟨visited, distinct, components⟩ := walks.1 _ _ _ first
      obtain ⟨others, below⟩ := ih walks.2 h
      refine ⟨?_, List.forall_mem_cons.mpr ⟨⟨distinct, components⟩, below⟩⟩
      rw [List.flatMap_cons, List.foldlM_append, List.foldlM_map]
      simp only [visitObject_prepend]
      rw [show entry.2.preorder.foldlM (fun s visit => context.visitObject (entry.1 :: path) s visit) s = .ok middle
        from visited]
      exact others

mutual

theorem collect_walks : ∀ node : Node, node.Named → context.Walks node
  | .directory mode entries, named => by
    rw [Node.Named] at named
    intro path s after h
    simp only [collectPersistentTreeIdentities] at h
    cases object : context.collectObject path (Node.directory mode entries).kind s with
    | error failed =>
      rw [object] at h
      cases h
    | ok middle =>
      rw [object] at h
      simp only [bind, Except.bind] at h
      cases read : readPortableDirectory context.unicode entries with
      | none =>
        rw [read] at h
        cases h
      | some names =>
        rw [read] at h
        have below := collectEntries_walks entries named
        have walks : ∀ entry ∈ sortByKey (keyed entries), context.Walks entry.2 := by
          intro entry member
          obtain ⟨raw, inside, rfl⟩ := List.mem_map.mp ((sortByKey_perm _).mem_iff.mp member)
          exact (below raw inside).2
        have sorted := sortByKey_map (fun name node => context.collectPersistentTreeIdentities (name :: path) node)
          (keyed entries)
        rw [collectEntries_eq, sorted, List.foldlM_map] at h
        obtain ⟨visited, inner⟩ := foldlM_walks walks h
        have order : (sortByKey entries.walks).flatMap (fun walk => walk.2.map (prepend walk.1)) =
            (sortByKey (keyed entries)).flatMap fun entry => entry.2.preorder.map (prepend entry.1) := by
          rw [walks_eq, sortByKey_map (fun _ (node : Node) => node.preorder), List.flatMap_map]
        have inner' : ∀ entry ∈ keyed entries, _ := fun entry member =>
          inner entry ((sortByKey_perm _).mem_iff.mpr member)
        rw [Node.preorder, Node.Distinct, order]
        refine ⟨?_, ⟨walks_nodup read, (distinct_iff entries).mpr fun entry member => (inner' entry member).1⟩, ?_⟩
        · rw [List.foldlM_cons, visitObject]
          simp only [List.reverse_nil, List.nil_append, object, bind, Except.bind]
          exact visited
        · rw [List.forall_mem_cons]
          refine ⟨fun _ never => (by cases never), ?_⟩
          intro visit member
          obtain ⟨entry, inside, member⟩ := List.mem_flatMap.mp member
          obtain ⟨other, within, rfl⟩ := List.mem_map.mp member
          rw [(sortByKey_perm _).mem_iff] at inside
          refine List.forall_mem_cons.mpr ⟨?_, (inner' entry inside).2 other within⟩
          obtain ⟨raw, listed, rfl⟩ := List.mem_map.mp inside
          exact isComponent_of_name (below raw listed).1 (decoded_of_read read raw listed)
  | .file mode nlink bytes, _ => .object (by rw [Node.preorder]) (by rw [Node.Distinct]; trivial)
      fun path => by rw [collectPersistentTreeIdentities]
  | .symlink nlink target, _ => .object (by rw [Node.preorder]) (by rw [Node.Distinct]; trivial)
      fun path => by rw [collectPersistentTreeIdentities]
  | .special, _ => .object (by rw [Node.preorder]) (by rw [Node.Distinct]; trivial)
      fun path => by rw [collectPersistentTreeIdentities]

theorem collectEntries_walks : ∀ entries : Entries, entries.Named →
    ∀ entry ∈ entries.toList, IsFileName entry.1 ∧ context.Walks entry.2
  | .nil, _ => by
    rw [Entries.toList]
    intro entry never
    cases never
  | .cons name node rest, named => by
    rw [Entries.Named] at named
    rw [Entries.toList, List.forall_mem_cons]
    exact ⟨⟨named.1, collect_walks node named.2.1⟩, collectEntries_walks rest named.2.2⟩

end

/-! ### Accepted calls -/

/-- A persistent ID: the filesystem, the scheme and the object ID. -/
structure PersistentId where
  filesystemId : JsString
  objectIdentityScheme : JsString
  objectId : JsString
deriving DecidableEq

/-- The persistent ID that the inspector gives to an object. -/
def persistentId (context : IdentityContext) (path : Below) : Option PersistentId :=
  (context.inspectStoppedTreeObjectIdentity path.reverse).map fun objectId =>
    { filesystemId := context.filesystemId, objectIdentityScheme := context.objectIdentityScheme, objectId }

/-- Path, kind and object ID of an object. -/
def describe (context : IdentityContext) (visit : Below × Node) : Below × Option JsString × Option JsString :=
  (visit.1, visit.2.kind, context.inspectStoppedTreeObjectIdentity visit.1.reverse)

/-- The objects of a tree as the digest describes them. -/
def descriptions (context : IdentityContext) (root : Node) : List (Below × Option JsString × Option JsString) :=
  root.visits.map context.describe

/-- The tuple that says what is described. -/
def DescribedBy (entry : Below × Option JsString × Option JsString) (tuple : Tuple) : Prop :=
  entry.2 = (some tuple.kind, some tuple.objectId) ∧ tuple.path = List.intercalate [47] entry.1

/-- Kind and object ID can be read back from their bytes. -/
def PlainTuple (tuple : Tuple) : Prop := WellFormed tuple.kind ∧ WellFormed tuple.objectId

theorem wellFormed_kind {node : Node} {text : JsString} (kind : node.kind = some text) : WellFormed text := by
  cases node with
  | directory => cases kind; exact wellFormed_of_ascii (by decide)
  | file => cases kind; exact wellFormed_of_ascii (by decide)
  | symlink => cases kind; exact wellFormed_of_ascii (by decide)
  | special => cases kind

theorem wellFormed_objectId {path : List JsString} {objectId : JsString}
    (inspected : context.inspectStoppedTreeObjectIdentity path = some objectId) : WellFormed objectId := by
  obtain ⟨value, -, bound⟩ := Option.bind_eq_some_iff.mp inspected
  obtain ⟨⟨identity, text⟩, checked, bound⟩ := Option.bind_eq_some_iff.mp bound
  obtain ⟨_, -, same⟩ := Option.bind_eq_some_iff.mp bound
  obtain rfl := Option.some.inj same
  have valid : IsObjectId text := by
    unfold assertPersistentObjectIdentity at checked
    obtain ⟨fields, -, checked⟩ := Option.bind_eq_some_iff.mp checked
    split at checked
    · obtain ⟨_, -, checked⟩ := Option.bind_eq_some_iff.mp checked
      obtain ⟨_, -, checked⟩ := Option.bind_eq_some_iff.mp checked
      obtain ⟨_, valid, same⟩ := Option.bind_eq_some_iff.mp checked
      obtain rfl := (Prod.mk.inj (Option.some.inj same)).2
      exact ProviderState.ensure_eq_some_iff.mp valid
    · cases checked
  cases text with
  | nil => exact valid.elim
  | cons u rest => exact wellFormed_opaque (opaque_units valid.1 valid.2.2)

theorem foldlM_visitObject_extends (visits : List (Below × Node)) (s : Identities) :
    Extends s.objectIds (left (visits.foldlM (context.visitObject []) s)).objectIds := by
  have steps : ∀ entry ∈ visits.map (fun visit => (([] : JsString), fun s => context.visitObject [] s visit)),
      ∀ s, Extends s.objectIds (left (entry.2 s)).objectIds := by
    intro entry member s
    obtain ⟨visit, -, rfl⟩ := List.mem_map.mp member
    exact collectObject_extends _ _ s
  have extended := foldlM_extends steps s
  rw [List.foldlM_map] at extended
  exact extended

theorem foldlM_visitObject {visits : List (Below × Node)} {s after : Identities}
    (h : visits.foldlM (context.visitObject []) s = .ok after) :
    (∃ tuples, after.tuples = s.tuples ++ tuples ∧ (∀ tuple ∈ tuples, PlainTuple tuple) ∧
      List.Forall₂ DescribedBy (visits.map context.describe) tuples) ∧
      ∀ visit ∈ visits, ∃ objectId, context.inspectStoppedTreeObjectIdentity visit.1.reverse = some objectId ∧
        Bound after.objectIds (fileIdentityKey (context.lstat visit.1.reverse))
          (context.persistentIdentityKey objectId) := by
  induction visits generalizing s with
  | nil =>
    obtain rfl := Except.ok.inj h
    exact ⟨⟨[], (List.append_nil _).symm, fun _ never => (by cases never), .nil⟩, fun _ never => (by cases never)⟩
  | cons visit visits ih =>
    rw [List.foldlM_cons] at h
    cases first : context.visitObject [] s visit with
    | error failed =>
      rw [first] at h
      cases h
    | ok middle =>
      rw [first] at h
      simp only [bind, Except.bind] at h
      obtain ⟨⟨tuples, appended, plain, described⟩, bound⟩ := ih h
      rw [visitObject, List.append_nil] at first
      obtain ⟨text, objectId, kind, inspected, pushed, here⟩ := collectObject_ok first
      have kept := @foldlM_visitObject_extends context visits middle
      rw [h] at kept
      rw [List.reverse_reverse] at pushed
      refine ⟨⟨{ path := List.intercalate [47] visit.1, kind := text, objectId } :: tuples, ?_, ?_,
        .cons ⟨?_, rfl⟩ described⟩, ?_⟩
      · rw [appended, pushed, List.append_assoc]
        rfl
      · rw [List.forall_mem_cons]
        exact ⟨⟨wellFormed_kind kind, wellFormed_objectId inspected⟩, plain⟩
      · rw [describe, kind, inspected]
      · rw [List.forall_mem_cons]
        exact ⟨⟨objectId, inspected, here.mono kept⟩, bound⟩

/-- What an accepted call has hashed, and what it has bound. -/
structure Digested (context : IdentityContext) (root : Node) (stream : Bytes) (after : ObjectIds) : Prop where
  filesystemId : IsOpaqueId context.filesystemId
  objectIdentityScheme : IsOpaqueId context.objectIdentityScheme
  distinct : root.Distinct
  components : ∀ visit ∈ root.preorder, ∀ component ∈ visit.1, IsComponent component
  tuples : ∃ tuples, stream = context.identityStream tuples ∧ (∀ tuple ∈ tuples, PlainTuple tuple) ∧
    List.Forall₂ DescribedBy (root.preorder.map context.describe) tuples
  bound : ∀ visit ∈ root.visits, ∃ objectId,
    context.inspectStoppedTreeObjectIdentity visit.1.reverse = some objectId ∧
      Bound after (fileIdentityKey (context.lstat visit.1.reverse)) (context.persistentIdentityKey objectId)

theorem digested_of_ok {root : Node} {objectIds after : ObjectIds} {stream : Bytes} (named : root.Named)
    (h : context.digestStoppedTreeIdentities root objectIds = .ok (stream, after)) :
    context.Digested root stream after := by
  unfold digestStoppedTreeIdentities at h
  split at h
  · rename_i valid
    split at h
    · rename_i s collected
      obtain ⟨rfl, rfl⟩ := Prod.mk.inj (Except.ok.inj h)
      obtain ⟨visited, distinct, components⟩ := collect_walks root named _ _ _ collected
      obtain ⟨⟨tuples, same, plain, described⟩, bound⟩ := foldlM_visitObject visited
      rw [List.nil_append] at same
      exact
        { filesystemId := valid.1
          objectIdentityScheme := valid.2
          distinct
          components
          tuples := ⟨tuples, by rw [same], plain, described⟩
          bound := fun visit member => bound visit (root.preorder_perm.mem_iff.mpr member) }
    · cases h
  · cases h

/-! ### Streams -/

theorem tuples_unique {entries : List (Below × Option JsString × Option JsString)} {tuples others : List Tuple}
    (first : List.Forall₂ DescribedBy entries tuples) (second : List.Forall₂ DescribedBy entries others) :
    tuples = others := by
  induction first generalizing others with
  | nil =>
    cases second
    rfl
  | cons here _ ih =>
    cases second with
    | cons there rest =>
      obtain ⟨kinds, ids⟩ := Prod.mk.inj (here.1.symm.trans there.1)
      have same := Tuple.ext (here.2.trans there.2.symm) (Option.some.inj kinds) (Option.some.inj ids)
      rw [ih rest, same]

theorem entries_unique {entries others : List (Below × Option JsString × Option JsString)} {tuples : List Tuple}
    (first : List.Forall₂ DescribedBy entries tuples) (second : List.Forall₂ DescribedBy others tuples)
    (components : ∀ entry ∈ entries, ∀ component ∈ entry.1, IsComponent component)
    (otherComponents : ∀ entry ∈ others, ∀ component ∈ entry.1, IsComponent component) : entries = others := by
  induction first generalizing others with
  | nil =>
    cases second
    rfl
  | cons here _ ih =>
    cases second with
    | cons there rest =>
      rw [List.forall_mem_cons] at components otherComponents
      have path := path_injective components.1 otherComponents.1 (here.2.symm.trans there.2)
      rw [ih rest components.2 otherComponents.2, Prod.ext path (here.1.trans there.1.symm)]

/-- The fields of the tuples determine the tuples. -/
theorem tupleFields_injective {tuples others : List Tuple} (paths : ∀ tuple ∈ tuples, WellFormed tuple.path)
    (otherPaths : ∀ tuple ∈ others, WellFormed tuple.path) (plain : ∀ tuple ∈ tuples, PlainTuple tuple)
    (otherPlain : ∀ tuple ∈ others, PlainTuple tuple)
    (same : tuples.flatMap (fun tuple => [encodeUtf8 tuple.path, encodeUtf8 tuple.kind, encodeUtf8 tuple.objectId]) =
      others.flatMap fun tuple => [encodeUtf8 tuple.path, encodeUtf8 tuple.kind, encodeUtf8 tuple.objectId]) :
    tuples = others := by
  induction tuples generalizing others with
  | nil =>
    cases others with
    | nil => rfl
    | cons other others => cases same
  | cons tuple tuples ih =>
    cases others with
    | nil => cases same
    | cons other others =>
      rw [List.forall_mem_cons] at paths otherPaths plain otherPlain
      simp only [List.flatMap_cons, List.cons_append, List.nil_append, List.cons.injEq] at same
      obtain ⟨path, kind, objectId, rest⟩ := same
      have here := Tuple.ext (encodeUtf8_inj paths.1 otherPaths.1 path)
        (encodeUtf8_inj plain.1.1 otherPlain.1.1 kind) (encodeUtf8_inj plain.1.2 otherPlain.1.2 objectId)
      rw [ih paths.2 otherPaths.2 plain.2 otherPlain.2 rest, here]

theorem paths_wellFormed {entries : List (Below × Option JsString × Option JsString)} {tuples : List Tuple}
    (described : List.Forall₂ DescribedBy entries tuples)
    (components : ∀ entry ∈ entries, ∀ component ∈ entry.1, IsComponent component) :
    ∀ tuple ∈ tuples, WellFormed tuple.path := by
  induction described with
  | nil => exact fun _ never => (by cases never)
  | cons here _ ih =>
    rw [List.forall_mem_cons] at components ⊢
    exact ⟨here.2 ▸ wellFormed_path components.1, ih components.2⟩

theorem wellFormed_opaqueId {s : JsString} (valid : IsOpaqueId s) : WellFormed s := by
  cases s with
  | nil => exact valid.elim
  | cons u rest => exact wellFormed_opaque (opaque_units valid.1 valid.2.2)

theorem mem_descriptions {root : Node} {entry : Below × Option JsString × Option JsString} :
    entry ∈ context.descriptions root ↔ entry ∈ root.preorder.map context.describe :=
  (root.preorder_perm.map _).mem_iff.symm

section Streams

variable {other : IdentityContext} {root otherRoot : Node} {stream otherStream : Bytes} {after otherAfter : ObjectIds}

theorem Digested.sorted (h : context.Digested root stream after) :
    (root.preorder.map context.describe).Pairwise fun a b => a.1 < b.1 := by
  rw [List.pairwise_map]
  exact root.preorder_sorted h.distinct

theorem Digested.entries (h : context.Digested root stream after) :
    ∀ entry ∈ root.preorder.map context.describe, ∀ component ∈ entry.1, IsComponent component := by
  intro entry member
  obtain ⟨visit, inside, rfl⟩ := List.mem_map.mp member
  exact h.components visit inside

/-- Two digests hash the same bytes iff they are about the same filesystem, scheme, paths, kinds and IDs. -/
theorem identityStream_eq_iff (h : context.Digested root stream after)
    (h' : other.Digested otherRoot otherStream otherAfter) :
    stream = otherStream ↔ context.filesystemId = other.filesystemId ∧
      context.objectIdentityScheme = other.objectIdentityScheme ∧
      ∀ entry, entry ∈ context.descriptions root ↔ entry ∈ other.descriptions otherRoot := by
  obtain ⟨tuples, rfl, plain, described⟩ := h.tuples
  obtain ⟨others, rfl, otherPlain, otherDescribed⟩ := h'.tuples
  constructor
  · intro same
    have fields := updateHashFields_injective (List.append_cancel_left same)
    simp only [List.cons_append, List.nil_append, List.cons.injEq] at fields
    obtain ⟨filesystem, scheme, rest⟩ := fields
    obtain rfl := tupleFields_injective (paths_wellFormed described h.entries)
      (paths_wellFormed otherDescribed h'.entries) plain otherPlain rest
    have entries := entries_unique described otherDescribed h.entries h'.entries
    refine ⟨encodeUtf8_inj (wellFormed_opaqueId h.filesystemId) (wellFormed_opaqueId h'.filesystemId) filesystem,
      encodeUtf8_inj (wellFormed_opaqueId h.objectIdentityScheme) (wellFormed_opaqueId h'.objectIdentityScheme) scheme,
      ?_⟩
    intro entry
    rw [mem_descriptions, mem_descriptions, entries]
  · rintro ⟨filesystem, scheme, same⟩
    have entries := eq_of_sorted h.sorted h'.sorted (by
      intro entry
      rw [← mem_descriptions, ← mem_descriptions]
      exact same entry)
    rw [entries] at described
    rw [identityStream, identityStream, filesystem, scheme, tuples_unique described otherDescribed]

end Streams

/-! ### Calls that share a map -/

/-- The map that a call leaves, whether it succeeds or not. -/
def leaves : Except ObjectIds (Bytes × ObjectIds) → ObjectIds
  | .ok (_, objectIds) => objectIds
  | .error objectIds => objectIds

theorem digest_extends (root : Node) (objectIds : ObjectIds) :
    Extends objectIds (leaves (context.digestStoppedTreeIdentities root objectIds)) := by
  unfold digestStoppedTreeIdentities
  split
  · have walk := @collect_extends context [] root { objectIds, tuples := [] }
    cases collected : context.collectPersistentTreeIdentities [] root { objectIds, tuples := [] } with
    | ok s =>
      rw [collected] at walk
      exact walk
    | error s =>
      rw [collected] at walk
      exact walk
  · exact .refl _

/-- The map after the calls. -/
def runCalls (calls : List (IdentityContext × Node)) (objectIds : ObjectIds) : ObjectIds :=
  calls.foldl (fun objectIds call => leaves (call.1.digestStoppedTreeIdentities call.2 objectIds)) objectIds

/-- The calls that succeed. -/
def acceptedCalls : List (IdentityContext × Node) → ObjectIds → List (IdentityContext × Node)
  | [], _ => []
  | call :: calls, objectIds =>
      match call.1.digestStoppedTreeIdentities call.2 objectIds with
      | .ok (_, after) => call :: acceptedCalls calls after
      | .error after => acceptedCalls calls after

theorem runCalls_extends (calls : List (IdentityContext × Node)) (objectIds : ObjectIds) :
    Extends objectIds (runCalls calls objectIds) := by
  induction calls generalizing objectIds with
  | nil => exact .refl _
  | cons call calls ih => exact (digest_extends call.2 objectIds).trans (ih _)

/-- In the end every object of an accepted call is still bound to its persistent ID. -/
theorem bound_of_accepted {calls : List (IdentityContext × Node)} (named : ∀ call ∈ calls, call.2.Named)
    (objectIds : ObjectIds) : ∀ call ∈ acceptedCalls calls objectIds,
      IsOpaqueId call.1.filesystemId ∧ IsOpaqueId call.1.objectIdentityScheme ∧
      ∀ visit ∈ call.2.visits, ∃ objectId,
        call.1.inspectStoppedTreeObjectIdentity visit.1.reverse = some objectId ∧
        Bound (runCalls calls objectIds) (fileIdentityKey (call.1.lstat visit.1.reverse))
          (call.1.persistentIdentityKey objectId) := by
  induction calls generalizing objectIds with
  | nil => exact fun _ never => (by cases never)
  | cons call calls ih =>
    rw [List.forall_mem_cons] at named
    have later := ih named.2
    rw [acceptedCalls, runCalls, List.foldl_cons, ← runCalls]
    split
    · rename_i stream after digested
      rw [digested, List.forall_mem_cons]
      have first := digested_of_ok named.1 digested
      refine ⟨⟨first.filesystemId, first.objectIdentityScheme, ?_⟩, later after⟩
      intro visit member
      obtain ⟨objectId, inspected, bound⟩ := first.bound visit member
      exact ⟨objectId, inspected, bound.mono (runCalls_extends calls after)⟩
    · rename_i after failed
      rw [failed]
      exact later after

theorem persistentIdentityKey_injective {other : IdentityContext} {objectId otherId : JsString}
    (filesystemId : IsOpaqueId context.filesystemId) (scheme : IsOpaqueId context.objectIdentityScheme)
    (otherFilesystemId : IsOpaqueId other.filesystemId) (otherScheme : IsOpaqueId other.objectIdentityScheme)
    (same : context.persistentIdentityKey objectId = other.persistentIdentityKey otherId) :
    context.filesystemId = other.filesystemId ∧ context.objectIdentityScheme = other.objectIdentityScheme ∧
      objectId = otherId := by
  obtain ⟨filesystems, rest⟩ :=
    split_unique (separator_notMem filesystemId) (separator_notMem otherFilesystemId) same
  obtain ⟨schemes, ids⟩ := split_unique (separator_notMem scheme) (separator_notMem otherScheme) rest
  exact ⟨filesystems, schemes, ids⟩

/-- Calls that share a map and succeed see one object for each persistent ID and one ID for each object. -/
theorem unaliased_of_shared {calls : List (IdentityContext × Node)} (named : ∀ call ∈ calls, call.2.Named)
    (objectIds : ObjectIds) {call other : IdentityContext × Node} (accepted : call ∈ acceptedCalls calls objectIds)
    (otherAccepted : other ∈ acceptedCalls calls objectIds) {visit otherVisit : Below × Node}
    (member : visit ∈ call.2.visits) (otherMember : otherVisit ∈ other.2.visits) :
    call.1.persistentId visit.1 = other.1.persistentId otherVisit.1 ↔
      call.1.lstat visit.1.reverse = other.1.lstat otherVisit.1.reverse := by
  obtain ⟨filesystem, scheme, objects⟩ := bound_of_accepted named objectIds call accepted
  obtain ⟨otherFilesystem, otherScheme, otherObjects⟩ := bound_of_accepted named objectIds other otherAccepted
  obtain ⟨objectId, inspected, bound⟩ := objects visit member
  obtain ⟨otherId, otherInspected, otherBound⟩ := otherObjects otherVisit otherMember
  simp only [persistentId, inspected, otherInspected, Option.map_some, Option.some.injEq, PersistentId.mk.injEq]
  constructor
  · rintro ⟨filesystems, schemes, ids⟩
    have key : call.1.persistentIdentityKey objectId = other.1.persistentIdentityKey otherId := by
      rw [persistentIdentityKey, persistentIdentityKey, filesystems, schemes, ids]
    have found := bound.persistent
    rw [key, otherBound.persistent] at found
    exact (fileIdentityKey_injective (Option.some.inj found)).symm
  · intro same
    have found := bound.runtime
    rw [same, otherBound.runtime] at found
    exact persistentIdentityKey_injective filesystem scheme otherFilesystem otherScheme (Option.some.inj found).symm

end IdentityContext

/-! ### The laws -/

/-- Both digests encode the tree injectively and whatever the order of its directories, and the digest of the
identities rejects aliases, also between trees that share a map. -/
theorem digestLaws :
    (∀ unicode checkAccess otherAccess (root other : Node) stream otherStream, root.Named → other.Named →
      treeStream unicode checkAccess root = some stream → treeStream unicode otherAccess other = some otherStream →
      (stream = otherStream ↔ ∀ entry, entry ∈ root.descriptions ↔ entry ∈ other.descriptions)) ∧
    (∀ (context other : IdentityContext) (root otherRoot : Node) objectIds otherIds stream otherStream after otherAfter,
      root.Named → otherRoot.Named →
      context.digestStoppedTreeIdentities root objectIds = .ok (stream, after) →
      other.digestStoppedTreeIdentities otherRoot otherIds = .ok (otherStream, otherAfter) →
      (stream = otherStream ↔ context.filesystemId = other.filesystemId ∧
        context.objectIdentityScheme = other.objectIdentityScheme ∧
        ∀ entry, entry ∈ context.descriptions root ↔ entry ∈ other.descriptions otherRoot)) ∧
    ∀ (calls : List (IdentityContext × Node)) objectIds, (∀ call ∈ calls, call.2.Named) →
      ∀ call ∈ IdentityContext.acceptedCalls calls objectIds, ∀ other ∈ IdentityContext.acceptedCalls calls objectIds,
      ∀ visit ∈ call.2.visits, ∀ otherVisit ∈ other.2.visits,
        (call.1.persistentId visit.1 = other.1.persistentId otherVisit.1 ↔
          call.1.lstat visit.1.reverse = other.1.lstat otherVisit.1.reverse) := by
  refine ⟨?_, ?_, ?_⟩
  · intro unicode checkAccess otherAccess root other stream otherStream named otherNamed h h'
    exact stream_eq_iff named otherNamed h h'
  · intro context other root otherRoot objectIds otherIds stream otherStream after otherAfter named otherNamed h h'
    exact IdentityContext.identityStream_eq_iff (IdentityContext.digested_of_ok named h)
      (IdentityContext.digested_of_ok otherNamed h')
  · intro calls objectIds named call accepted other otherAccepted visit member otherVisit otherMember
    exact IdentityContext.unaliased_of_shared named objectIds accepted otherAccepted member otherMember

def linkEntry : Bytes × Node := (encodeUtf8 (js "a"), .symlink 1 (encodeUtf8 (js "b")))

def directoryEntry : Bytes × Node := (encodeUtf8 (js "b"), .directory 0o700 .nil)

/-- A directory listed in two orders. -/
def listed : Node := .directory 0o755 (.ofList [linkEntry, directoryEntry])

def relisted : Node := .directory 0o755 (.ofList [directoryEntry, linkEntry])

theorem listed_named : listed.Named := by
  simp only [listed, Entries.ofList, Node.Named, Entries.Named, linkEntry, directoryEntry, IsFileName]
  decide

theorem relisted_named : relisted.Named := by
  simp only [relisted, Entries.ofList, Node.Named, Entries.Named, linkEntry, directoryEntry, IsFileName]
  decide

/-- A filesystem in which the directory has inode 1 and its entries have 2 and 3, under an inspector. -/
def inspected (objectId : Nat → JsString) : IdentityContext where
  unicode := asciiUnicode
  filesystemId := js "fs"
  objectIdentityScheme := js "inode"
  lstat path := { dev := 1, ino := inode path }
  inspectPersistentObjectIdentity path :=
    some (ProviderState.record [js "device", js "inode", js "objectId"]
      [.string (js "1"), .string (decimal (inode path)), .string (objectId (inode path))])
where
  inode : List JsString → Nat
    | [] => 1
    | name :: _ => if name = js "a" then 2 else 3

/-- The inspector of the inodes, one of other persistent IDs and one that gives all objects the same. -/
def faithful : IdentityContext := inspected decimal

def renamed : IdentityContext := inspected fun ino => 120 :: decimal ino

def aliased : IdentityContext := inspected fun _ => js "x"

theorem exists_of_toBool {ε α : Type} {result : Except ε α} (ok : result.toBool = true) : ∃ value, result = .ok value := by
  cases result with
  | error _ => cases ok
  | ok value => exact ⟨value, rfl⟩

/-- The order of the entries leaves both digests as they are. An alias is refused, in one tree and between the trees
that share a map. -/
theorem digestLaws_relisted :
    (∃ stream, treeStream asciiUnicode (fun _ => true) listed = some stream ∧
      treeStream asciiUnicode (fun _ => true) relisted = some stream) ∧
    (∃ stream after otherAfter, faithful.digestStoppedTreeIdentities listed .empty = .ok (stream, after) ∧
      faithful.digestStoppedTreeIdentities relisted .empty = .ok (stream, otherAfter)) ∧
    (aliased.digestStoppedTreeIdentities listed .empty).toBool = false ∧
    (IdentityContext.acceptedCalls [(faithful, listed), (renamed, listed), (faithful, relisted)] .empty).length = 2 ∧
    ∀ call ∈ IdentityContext.acceptedCalls [(faithful, listed), (renamed, listed), (faithful, relisted)] .empty,
      ∀ visit ∈ call.2.visits, ∀ otherVisit ∈ call.2.visits,
        (call.1.persistentId visit.1 = call.1.persistentId otherVisit.1 ↔
          call.1.lstat visit.1.reverse = call.1.lstat otherVisit.1.reverse) := by
  refine ⟨?_, ?_, by decide +kernel, by decide +kernel, ?_⟩
  · obtain ⟨stream, first⟩ := Option.isSome_iff_exists.mp
      (by decide +kernel : (treeStream asciiUnicode (fun _ => true) listed).isSome = true)
    obtain ⟨other, second⟩ := Option.isSome_iff_exists.mp
      (by decide +kernel : (treeStream asciiUnicode (fun _ => true) relisted).isSome = true)
    have perm : listed.descriptions.Perm relisted.descriptions := by decide +kernel
    obtain rfl := (digestLaws.1 _ _ _ _ _ _ _ listed_named relisted_named first second).mpr fun entry => perm.mem_iff
    exact ⟨stream, first, second⟩
  · obtain ⟨⟨stream, after⟩, first⟩ := exists_of_toBool
      (by decide +kernel : (faithful.digestStoppedTreeIdentities listed .empty).toBool = true)
    obtain ⟨⟨other, otherAfter⟩, second⟩ := exists_of_toBool
      (by decide +kernel : (faithful.digestStoppedTreeIdentities relisted .empty).toBool = true)
    have perm : (faithful.descriptions listed).Perm (faithful.descriptions relisted) := by decide +kernel
    obtain rfl := (digestLaws.2.1 _ _ _ _ _ _ _ _ _ _ listed_named relisted_named first second).mpr
      ⟨rfl, rfl, fun entry => perm.mem_iff⟩
    exact ⟨stream, after, otherAfter, first, second⟩
  · intro call accepted visit member otherVisit otherMember
    refine digestLaws.2.2 _ .empty ?_ call accepted call accepted visit member otherVisit otherMember
    intro named inside
    simp only [List.mem_cons, List.not_mem_nil, or_false] at inside
    rcases inside with rfl | rfl | rfl
    · exact listed_named
    · exact listed_named
    · exact relisted_named

end PortableCodex.StoppedTree
