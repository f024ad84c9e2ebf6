import PortableCodex.StoppedTree.Fields
import PortableCodex.StoppedTree.Traversal

/-!
What the digest of a tree says about the tree.

The fields that are hashed are those of the visits of a walk (`hashTreeEntry_preorder`), and the kind in
front of the fields of an object says how many they are, so the stream determines the visits
(`visitFields_injective`). Two trees have the same stream iff they have the same objects, as far as the
digest describes them, at the same paths (`stream_eq_iff`).
-/

namespace PortableCodex.StoppedTree

open Js

/-! ### Descriptions -/

/-- What the digest says of an object. -/
inductive Description where
  | directory (mode : Nat)
  | file (mode size : Nat) (digest : JsString)
  | symlink (target : Bytes)
  | special
deriving DecidableEq

def Node.description : Node → Description
  | .directory mode _ => .directory (mode &&& 0o777)
  | .file mode _ bytes => .file (mode &&& 0o777) bytes.length (hex (sha256 bytes))
  | .symlink _ target => .symlink target
  | .special => .special

/-- The descriptions of the objects of a tree at their paths. -/
def Node.descriptions (node : Node) : List (Below × Description) :=
  node.visits.map fun visit => (visit.1, visit.2.description)

def Description.fields (path : List JsString) : Description → List Bytes
  | .directory mode => [encodeUtf8 (js "directory"), encodeUtf8 (entryPath path), encodeUtf8 (decimal mode)]
  | .file mode size digest => [encodeUtf8 (js "file"), encodeUtf8 (entryPath path), encodeUtf8 (decimal mode),
      encodeUtf8 (decimal size), encodeUtf8 digest]
  | .symlink target => [encodeUtf8 (js "symlink"), encodeUtf8 (entryPath path), target]
  | .special => []

mutual

/-- The names of the tree are names of a file system. -/
def Node.Named : Node → Prop
  | .directory _ entries => entries.Named
  | .file _ _ _ => True
  | .symlink _ _ => True
  | .special => True

def Entries.Named : Entries → Prop
  | .nil => True
  | .cons name node rest => IsFileName name ∧ node.Named ∧ rest.Named

end

/-! ### The walk of the digest -/

/-- A description that can be read back from its fields. -/
def Described : Description → Prop
  | .file _ _ digest => WellFormed digest
  | .special => False
  | _ => True

/-- What a visit of an accepted walk is. -/
structure Accepted (visit : Below × Node) : Prop where
  components : ∀ component ∈ visit.1, IsComponent component
  described : Described visit.2.description

theorem Accepted.prepend {visit : Below × Node} (accepted : Accepted visit) {name : JsString}
    (component : IsComponent name) : Accepted (prepend name visit) :=
  ⟨List.forall_mem_cons.mpr ⟨component, accepted.components⟩, accepted.described⟩

def visitFields (path : List JsString) (visit : Below × Node) : List Bytes :=
  visit.2.description.fields (visit.1.reverse ++ path)

theorem visitFields_prepend (path : List JsString) (name : JsString) (visit : Below × Node) :
    visitFields path (prepend name visit) = visitFields (name :: path) visit := by
  simp [visitFields, prepend]

theorem wellFormed_hex (bytes : Bytes) : WellFormed (hex bytes) := by
  refine wellFormed_of_ascii fun u inside => ?_
  have digit := hex_all bytes u inside
  simp only [isLowerHex, isDigit, decide_eq_true_eq] at digit
  omega

theorem walks_names (entries : Entries) :
    entries.walks.map Prod.fst = (entries.toList.map Prod.fst).map decodeUtf8 := by
  cases entries with
  | nil =>
    rw [Entries.walks, Entries.toList]
    rfl
  | cons name node rest =>
    rw [Entries.walks, Entries.toList, List.map_cons, List.map_cons, List.map_cons, walks_names rest]

theorem decoded_names {raw : List Bytes} {names : List JsString}
    (decoded : raw.mapM decodePortablePathBytes = some names) : raw.map decodeUtf8 = names := by
  have all := mapM_eq_some_iff.mp decoded
  clear decoded
  induction all with
  | nil => rfl
  | cons first _ ih => rw [List.map_cons, ih, (decodePortablePathBytes_eq_some.mp first).1]

/-- The names of a directory that is read differ. -/
theorem walks_nodup {unicode : Unicode} {entries : Entries} {names : List JsString}
    (read : readPortableDirectory unicode entries = some names) : (entries.walks.map Prod.fst).Nodup := by
  obtain ⟨decoded, portable⟩ := readPortableDirectory_eq_some.mp read
  rw [walks_names, decoded_names decoded]
  exact (names_nodup decoded portable).1

theorem sortByKey_map {α β : Type} (f : JsString → α → β) (ms : List (JsString × α)) :
    sortByKey (ms.map fun m => (m.1, f m.1 m.2)) = (sortByKey ms).map fun m => (m.1, f m.1 m.2) := by
  symm
  apply List.map_insertionSort
  intro _ _ _ _
  exact Iff.rfl

section Walk

variable {unicode : Unicode} {checkAccess : List JsString → Bool}

mutual

/-- The fields of an accepted tree are those of the visits of a walk. -/
theorem hashTreeEntry_preorder : ∀ {path : List JsString} {node : Node} {fields : List Bytes}, node.Named →
    hashTreeEntry unicode checkAccess path node = some fields →
    fields = node.preorder.flatMap (visitFields path) ∧ node.Distinct ∧ ∀ visit ∈ node.preorder, Accepted visit
  | path, .directory mode entries, fields, named, h => by
    rw [Node.Named] at named
    rw [hashTreeEntry] at h
    obtain ⟨_, -, h⟩ := Option.bind_eq_some_iff.mp h
    obtain ⟨final, portable, h⟩ := Option.bind_eq_some_iff.mp h
    obtain ⟨names, read, h⟩ := Option.bind_eq_some_iff.mp h
    obtain ⟨hashed, below, same⟩ := Option.bind_eq_some_iff.mp h
    obtain ⟨walks, distinct, accepted⟩ := hashEntries_walks named below
    obtain ⟨-, rfl⟩ := portableMode_eq_some portable
    have sorted := sortByKey_map (fun name visits => visits.flatMap (visitFields (name :: path))) entries.walks
    refine ⟨?_, by rw [Node.Distinct]; exact ⟨walks_nodup read, distinct⟩, ?_⟩
    · obtain rfl := Option.some.inj same
      rw [Node.preorder, List.flatMap_cons, walks, sorted, List.flatMap_map, List.flatMap_assoc]
      simp only [List.flatMap_map, visitFields_prepend]
      rfl
    · rw [Node.preorder, List.forall_mem_cons]
      refine ⟨⟨fun _ never => (by cases never), trivial⟩, ?_⟩
      intro visit member
      obtain ⟨walk, inside, member⟩ := List.mem_flatMap.mp member
      obtain ⟨other, below, rfl⟩ := List.mem_map.mp member
      exact accepted walk ((sortByKey_perm _).mem_iff.mp inside) other below
  | path, .file mode nlink bytes, fields, _, h => by
    rw [hashTreeEntry] at h
    obtain ⟨_, -, h⟩ := Option.bind_eq_some_iff.mp h
    obtain ⟨_, -, h⟩ := Option.bind_eq_some_iff.mp h
    obtain ⟨final, portable, same⟩ := Option.bind_eq_some_iff.mp h
    obtain ⟨-, rfl⟩ := portableMode_eq_some portable
    refine ⟨?_, by rw [Node.Distinct]; trivial, ?_⟩
    · rw [Node.preorder, List.flatMap_singleton]
      exact (Option.some.inj same).symm
    · rw [Node.preorder]
      intro visit member
      obtain rfl := List.mem_singleton.mp member
      exact ⟨fun _ never => (by cases never), wellFormed_hex _⟩
  | path, .symlink nlink target, fields, _, h => by
    rw [hashTreeEntry] at h
    obtain ⟨_, -, h⟩ := Option.bind_eq_some_iff.mp h
    obtain ⟨_, -, same⟩ := Option.bind_eq_some_iff.mp h
    refine ⟨?_, by rw [Node.Distinct]; trivial, ?_⟩
    · rw [Node.preorder, List.flatMap_singleton]
      exact (Option.some.inj same).symm
    · rw [Node.preorder]
      intro visit member
      obtain rfl := List.mem_singleton.mp member
      exact ⟨fun _ never => (by cases never), trivial⟩
  | path, .special, fields, _, h => by
    rw [hashTreeEntry] at h
    cases h

theorem hashEntries_walks : ∀ {path : List JsString} {entries : Entries} {hashed : List (JsString × List Bytes)},
    entries.Named → hashEntries unicode checkAccess path entries = some hashed →
    hashed = entries.walks.map (fun walk => (walk.1, walk.2.flatMap (visitFields (walk.1 :: path)))) ∧
      entries.Distinct ∧ ∀ walk ∈ entries.walks, ∀ visit ∈ walk.2, Accepted (prepend walk.1 visit)
  | path, .nil, hashed, _, h => by
    rw [hashEntries] at h
    obtain rfl := Option.some.inj h
    rw [Entries.walks, Entries.Distinct]
    exact ⟨rfl, trivial, fun _ never => (by cases never)⟩
  | path, .cons name node rest, hashed, named, h => by
    rw [Entries.Named] at named
    obtain ⟨valid, named, others⟩ := named
    rw [hashEntries] at h
    obtain ⟨entry, decoded, h⟩ := Option.bind_eq_some_iff.mp h
    obtain ⟨fields, first, h⟩ := Option.bind_eq_some_iff.mp h
    obtain ⟨tail, last, same⟩ := Option.bind_eq_some_iff.mp h
    have component := isComponent_of_name valid decoded
    obtain ⟨text, -⟩ := decodePortablePathBytes_eq_some.mp decoded
    obtain ⟨rfl, distinctNode, acceptedNode⟩ := hashTreeEntry_preorder named first
    obtain ⟨rfl, distinct, accepted⟩ := hashEntries_walks others last
    rw [Entries.walks, Entries.Distinct, text]
    refine ⟨(Option.some.inj same).symm, ⟨distinctNode, distinct⟩, ?_⟩
    rw [List.forall_mem_cons]
    exact ⟨fun visit member => (acceptedNode visit member).prepend component, accepted⟩

end

end Walk

/-! ### Reading the stream back -/

theorem fields_injective {path : Below} {description : Description} {rest others : List Bytes}
    {other : Below} {otherDescription : Description} (first : ∀ component ∈ path, IsComponent component)
    (second : ∀ component ∈ other, IsComponent component) (described : Described description)
    (otherDescribed : Described otherDescription)
    (same : description.fields path.reverse ++ rest = otherDescription.fields other.reverse ++ others) :
    path = other ∧ description = otherDescription ∧ rest = others := by
  have paths (same : encodeUtf8 (entryPath path.reverse) = encodeUtf8 (entryPath other.reverse)) : path = other := by
    have first' : ∀ component ∈ path.reverse, IsComponent component :=
      fun component member => first component (List.mem_reverse.mp member)
    have second' : ∀ component ∈ other.reverse, IsComponent component :=
      fun component member => second component (List.mem_reverse.mp member)
    exact List.reverse_injective (entryPath_injective first' second'
      (encodeUtf8_inj (wellFormed_entryPath first') (wellFormed_entryPath second') same))
  obtain ⟨directoryFile, directorySymlink, fileSymlink⟩ : encodeUtf8 (js "directory") ≠ encodeUtf8 (js "file") ∧
      encodeUtf8 (js "directory") ≠ encodeUtf8 (js "symlink") ∧
      encodeUtf8 (js "file") ≠ encodeUtf8 (js "symlink") := by decide
  cases description with
  | special => exact described.elim
  | directory mode =>
    cases otherDescription with
    | special => exact otherDescribed.elim
    | directory otherMode =>
      simp only [Description.fields, List.cons_append, List.nil_append, List.cons.injEq] at same
      obtain ⟨-, path, modes, rest⟩ := same
      exact ⟨paths path, by rw [encodeUtf8_decimal_injective modes], rest⟩
    | file => exact absurd (List.cons.inj same).1 directoryFile
    | symlink => exact absurd (List.cons.inj same).1 directorySymlink
  | file mode size digest =>
    cases otherDescription with
    | special => exact otherDescribed.elim
    | directory => exact absurd (List.cons.inj same).1.symm directoryFile
    | file otherMode otherSize otherDigest =>
      simp only [Description.fields, List.cons_append, List.nil_append, List.cons.injEq] at same
      obtain ⟨-, path, modes, sizes, digests, rest⟩ := same
      refine ⟨paths path, ?_, rest⟩
      rw [encodeUtf8_decimal_injective modes, encodeUtf8_decimal_injective sizes,
        encodeUtf8_inj described otherDescribed digests]
    | symlink => exact absurd (List.cons.inj same).1 fileSymlink
  | symlink target =>
    cases otherDescription with
    | special => exact otherDescribed.elim
    | directory => exact absurd (List.cons.inj same).1.symm directorySymlink
    | file => exact absurd (List.cons.inj same).1.symm fileSymlink
    | symlink otherTarget =>
      simp only [Description.fields, List.cons_append, List.nil_append, List.cons.injEq] at same
      obtain ⟨-, path, targets, rest⟩ := same
      exact ⟨paths path, by rw [targets], rest⟩

theorem fields_ne_nil {path : List JsString} {description : Description} (described : Described description) :
    description.fields path ≠ [] := by
  cases description with
  | special => exact described.elim
  | directory mode => exact List.cons_ne_nil _ _
  | file mode size digest => exact List.cons_ne_nil _ _
  | symlink target => exact List.cons_ne_nil _ _

/-- The fields of a walk determine its paths and descriptions. -/
theorem visitFields_injective {visits others : List (Below × Node)} (first : ∀ visit ∈ visits, Accepted visit)
    (second : ∀ visit ∈ others, Accepted visit)
    (same : visits.flatMap (visitFields []) = others.flatMap (visitFields [])) :
    visits.map (fun visit => (visit.1, visit.2.description)) =
      others.map (fun visit => (visit.1, visit.2.description)) := by
  have some {visit : Below × Node} (accepted : Accepted visit) (rest : List Bytes) :
      visitFields [] visit ++ rest ≠ [] := by
    intro none
    exact fields_ne_nil accepted.described (List.append_eq_nil_iff.mp none).1
  induction visits generalizing others with
  | nil =>
    cases others with
    | nil => rfl
    | cons other others => exact absurd same.symm (some (second other List.mem_cons_self) _)
  | cons visit visits ih =>
    cases others with
    | nil => exact absurd same (some (first visit List.mem_cons_self) _)
    | cons other others =>
      rw [List.forall_mem_cons] at first second
      rw [List.flatMap_cons, List.flatMap_cons, visitFields, visitFields, List.append_nil, List.append_nil] at same
      obtain ⟨path, description, rest⟩ := fields_injective first.1.components second.1.components
        first.1.described second.1.described same
      rw [List.map_cons, List.map_cons, path, description, ih first.2 second.2 rest]

/-! ### Streams -/

section Streams

variable {unicode : Unicode} {checkAccess otherAccess : List JsString → Bool} {node other : Node}
  {stream otherStream : Bytes}

theorem mem_descriptions {entry : Below × Description} :
    entry ∈ node.descriptions ↔ entry ∈ node.preorder.map fun visit => (visit.1, visit.2.description) :=
  (node.preorder_perm.map _).mem_iff.symm

theorem descriptions_sorted (distinct : node.Distinct) :
    (node.preorder.map fun visit => (visit.1, visit.2.description)).Pairwise fun a b => a.1 < b.1 := by
  rw [List.pairwise_map]
  exact node.preorder_sorted distinct

theorem flatMap_visitFields (visits : List (Below × Node)) (path : List JsString) :
    visits.flatMap (visitFields path) =
      (visits.map fun visit => (visit.1, visit.2.description)).flatMap
        fun entry => entry.2.fields (entry.1.reverse ++ path) := by
  rw [List.flatMap_map]
  rfl

/-- The bytes that `digestTree` feeds to the hash. -/
def treeStream (unicode : Unicode) (checkAccess : List JsString → Bool) (root : Node) : Option Bytes :=
  (hashTreeEntry unicode checkAccess [] root).map updateHashFields

/-- Two accepted trees are hashed alike iff the same descriptions stand at the same paths. -/
theorem stream_eq_iff (named : node.Named) (otherNamed : other.Named)
    (h : treeStream unicode checkAccess node = some stream)
    (h' : treeStream unicode otherAccess other = some otherStream) :
    stream = otherStream ↔ ∀ entry, entry ∈ node.descriptions ↔ entry ∈ other.descriptions := by
  obtain ⟨fields, hashed, rfl⟩ := Option.map_eq_some_iff.mp h
  obtain ⟨others, otherHashed, rfl⟩ := Option.map_eq_some_iff.mp h'
  obtain ⟨rfl, distinct, accepted⟩ := hashTreeEntry_preorder named hashed
  obtain ⟨rfl, otherDistinct, otherAccepted⟩ := hashTreeEntry_preorder otherNamed otherHashed
  constructor
  · intro same entry
    have visits := visitFields_injective accepted otherAccepted (updateHashFields_injective same)
    rw [mem_descriptions, mem_descriptions, visits]
  · intro same
    have visits := eq_of_sorted (descriptions_sorted distinct) (descriptions_sorted otherDistinct) (by
      intro entry
      rw [← mem_descriptions, ← mem_descriptions]
      exact same entry)
    rw [flatMap_visitFields, flatMap_visitFields, visits]

end Streams

end PortableCodex.StoppedTree
