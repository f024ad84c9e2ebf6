import PortableCodex.StoppedTree.Resolution

/-!
What a successful copy of a stopped tree is.

Every object of the source has its copy at the same path (`at_copy`), and with the same mode, contents and
target (`object_copy`). Both directories are sorted before they are hashed, so the order in which the copy
lists its entries does not matter (`hash_perm`).
-/

namespace PortableCodex.StoppedTree

open Js

/-! ### Contents -/

theorem writeAt_end {file bytes : Bytes} {position : Nat} (last : file.length = position) :
    writeAt file position bytes = file ++ bytes := by
  subst last
  rw [writeAt, List.take_length, Nat.sub_self, List.replicate_zero, List.append_nil,
    List.drop_eq_nil_of_le (Nat.le_add_right _ _), List.append_nil]

theorem writeBuffer_sound {buffer : Bytes} {position : Nat} {writes : List Nat} {written : Nat}
    {destination after : Bytes} (last : destination.length = position + written)
    (h : writeBuffer buffer position writes written destination = some after) :
    after = destination ++ buffer.drop written := by
  induction writes generalizing written destination with
  | nil =>
    obtain ⟨_, whole, same⟩ := Option.bind_eq_some_iff.mp h
    obtain rfl := Option.some.inj same
    have whole := ProviderState.ensure_eq_some_iff.mp whole
    rw [List.drop_eq_nil_of_le (Nat.le_of_not_lt whole), List.append_nil]
  | cons bytesWritten writes ih =>
    obtain ⟨_, short, h⟩ := Option.bind_eq_some_iff.mp h
    obtain ⟨-, short⟩ := ProviderState.ensure_eq_some_iff.mp short
    have chunk : subarray buffer written (written + bytesWritten) = (buffer.drop written).take bytesWritten := by
      rw [subarray, List.drop_take, Nat.add_sub_cancel_left]
    have chunkLength : ((buffer.drop written).take bytesWritten).length = bytesWritten := by
      rw [List.length_take, List.length_drop]
      exact Nat.min_eq_left short
    rw [writeAt_end last, chunk] at h
    rw [ih (by rw [List.length_append, last, chunkLength, Nat.add_assoc]) h, List.append_assoc,
      ← List.drop_drop, List.take_append_drop]

/-- Short reads and writes copy the whole file. -/
theorem copyFileContents_sound {source : Bytes} {reads : List (Nat × List Nat)} {position : Nat} {after : Bytes}
    (inside : position ≤ source.length)
    (h : copyFileContents source reads position (source.take position) = some after) : after = source := by
  induction reads generalizing position with
  | nil =>
    obtain ⟨_, whole, same⟩ := Option.bind_eq_some_iff.mp h
    obtain rfl := Option.some.inj same
    exact List.take_of_length_le (ProviderState.ensure_eq_some_iff.mp whole)
  | cons read reads ih =>
    obtain ⟨bytesRead, writes⟩ := read
    obtain ⟨_, short, h⟩ := Option.bind_eq_some_iff.mp h
    obtain ⟨-, -, short⟩ := ProviderState.ensure_eq_some_iff.mp short
    obtain ⟨destination, wrote, h⟩ := Option.bind_eq_some_iff.mp h
    have grown : destination = source.take (position + bytesRead) := by
      rw [writeBuffer_sound (by rw [List.length_take, Nat.min_eq_left inside]; rfl) wrote, List.drop_zero, subarray,
        List.drop_take, Nat.add_sub_cancel_left, List.take_add]
    rw [grown] at h
    exact ih short h

theorem portableMode_eq_some {mode final : Nat} (h : portableMode mode = some final) :
    mode &&& 0o7000 = 0 ∧ mode &&& 0o777 = final := by
  obtain ⟨_, plain, same⟩ := Option.bind_eq_some_iff.mp h
  exact ⟨ProviderState.ensure_eq_some_iff.mp plain, Option.some.inj same⟩

/-- A portable mode is its own portable mode. -/
theorem portableMode_idem {mode final : Nat} (h : portableMode mode = some final) : portableMode final = some final := by
  obtain ⟨-, rfl⟩ := portableMode_eq_some h
  have plain : (mode &&& 0o777) &&& 0o7000 = 0 := by
    rw [Nat.and_assoc]
    exact Nat.and_zero mode
  have same : (mode &&& 0o777) &&& 0o777 = mode &&& 0o777 := by
    rw [Nat.and_assoc]
    rfl
  unfold portableMode
  rw [ProviderState.ensure_pos plain, same]
  rfl

/-! ### Entries -/

section Lookup

variable {α : Type} {entries others : List (Bytes × α)} {name : Bytes} {a : α}

theorem lookup_eq_some_iff (distinct : (entries.map Prod.fst).Nodup) :
    entries.lookup name = some a ↔ (name, a) ∈ entries := by
  induction entries with
  | nil => exact ⟨fun never => (by cases never), fun never => (by cases never)⟩
  | cons entry entries ih =>
    obtain ⟨other, b⟩ := entry
    obtain ⟨fresh, distinct⟩ := List.nodup_cons.mp distinct
    rw [List.lookup_cons]
    by_cases same : name = other
    · subst same
      rw [beq_self_eq_true]
      constructor
      · intro found
        obtain rfl := Option.some.inj found
        exact List.mem_cons_self
      · intro inside
        rcases List.mem_cons.mp inside with here | later
        · rw [(Prod.mk.inj here).2]
        · exact absurd (List.mem_map.mpr ⟨(name, a), later, rfl⟩) fresh
    · rw [beq_eq_false_iff_ne.mpr same]
      rw [ih distinct]
      constructor
      · exact List.mem_cons_of_mem _
      · intro inside
        rcases List.mem_cons.mp inside with here | later
        · exact absurd (Prod.mk.inj here).1 same
        · exact later

theorem lookup_perm (distinct : (entries.map Prod.fst).Nodup) (perm : entries.Perm others) :
    entries.lookup name = others.lookup name := by
  have distinctOthers := (perm.map Prod.fst).nodup_iff.mp distinct
  apply Option.ext
  intro a
  rw [lookup_eq_some_iff distinct, lookup_eq_some_iff distinctOthers, perm.mem_iff]

end Lookup

/-! ### Copies -/

section Copies

variable {context : Context} {source : Node} {transfers : List JsString → List (Nat × List Nat)}

/-- An entry as the copy has it. -/
def encoded {α : Type} (entry : JsString × α) : Bytes × α := (encodeUtf8 entry.1, entry.2)

/-- What becomes of an entry at its copy. -/
structure Copies (context : Context) (source : Node) (transfers : List JsString → List (Nat × List Nat))
    (path : List JsString) (entry : Bytes × Node) (copied : JsString × Node) : Prop where
  name : decodeUtf8 entry.1 = copied.1 ∧ encodeUtf8 copied.1 = entry.1
  node : copyTreeEntry context source transfers (copied.1 :: path) entry.2 = some copied.2

theorem copyEntries_eq_some {path : List JsString} : ∀ {entries : Entries} {copied : List (JsString × Node)},
    copyEntries context source transfers path entries = some copied →
      List.Forall₂ (Copies context source transfers path) entries.toList copied
  | .nil, copied, h => by
    rw [copyEntries] at h
    obtain rfl := Option.some.inj h
    exact .nil
  | .cons name node rest, copied, h => by
    rw [copyEntries] at h
    obtain ⟨entry, decoded, h⟩ := Option.bind_eq_some_iff.mp h
    obtain ⟨first, copiedFirst, h⟩ := Option.bind_eq_some_iff.mp h
    obtain ⟨others, copiedOthers, same⟩ := Option.bind_eq_some_iff.mp h
    obtain rfl := Option.some.inj same
    exact .cons ⟨decodePortablePathBytes_eq_some.mp decoded, copiedFirst⟩ (copyEntries_eq_some copiedOthers)

theorem names_eq {path : List JsString} {entries : List (Bytes × Node)} {copied : List (JsString × Node)}
    (all : List.Forall₂ (Copies context source transfers path) entries copied) :
    (entries.map Prod.fst).mapM decodePortablePathBytes = some (copied.map Prod.fst) ∧
      (copied.map encoded).map Prod.fst = entries.map Prod.fst := by
  induction all with
  | nil => exact ⟨rfl, rfl⟩
  | cons first _ ih =>
    constructor
    · rw [List.map_cons, List.mapM_cons, decodePortablePathBytes_eq_some.mpr first.name, ih.1]
      rfl
    · rw [List.map_cons, List.map_cons, List.map_cons, ih.2]
      exact congrArg (· :: _) first.name.2

/-- The copy of a directory has the copies of its entries, under the same names. -/
theorem lookup_copies {path : List JsString} {entries : List (Bytes × Node)} {copied : List (JsString × Node)}
    (all : List.Forall₂ (Copies context source transfers path) entries copied) (name : Bytes) :
    (entries.lookup name = none → (copied.map encoded).lookup name = none) ∧
      ∀ node, entries.lookup name = some node → ∃ entry copy, (copied.map encoded).lookup name = some copy ∧
        encodeUtf8 entry = name ∧ copyTreeEntry context source transfers (entry :: path) node = some copy := by
  induction all with
  | nil => exact ⟨fun _ => rfl, fun _ never => by cases never⟩
  | @cons entry copy _ _ first _ ih =>
    obtain ⟨other, node⟩ := entry
    obtain ⟨text, copy⟩ := copy
    have same : encodeUtf8 text = other := first.name.2
    rw [List.map_cons, encoded, same, List.lookup_cons, List.lookup_cons]
    by_cases here : name = other
    · subst here
      rw [beq_self_eq_true]
      refine ⟨fun never => (by cases never), fun found there => ?_⟩
      obtain rfl := Option.some.inj there
      exact ⟨text, copy, rfl, same, first.node⟩
    · rw [beq_eq_false_iff_ne.mpr here]
      exact ih

theorem names_nodup {unicode : Unicode} {raw : List Bytes} {names : List JsString}
    (decoded : raw.mapM decodePortablePathBytes = some names) (portable : PortableNames unicode names) :
    names.Nodup ∧ raw.Nodup := by
  have distinct : names.Nodup := List.Nodup.of_map _ portable.2
  refine ⟨distinct, ?_⟩
  have all := mapM_eq_some_iff.mp decoded
  have same : raw.map decodeUtf8 = names := by
    clear decoded portable distinct
    induction all with
    | nil => rfl
    | cons first _ ih => rw [List.map_cons, ih, (decodePortablePathBytes_eq_some.mp first).1]
  rw [← same] at distinct
  exact List.Nodup.of_map _ distinct

/-- The copy of an object, in all its parts. -/
theorem copyTreeEntry_directory {path : List JsString} {mode : Nat} {entries : Entries} {copy : Node}
    (h : copyTreeEntry context source transfers path (.directory mode entries) = some copy) :
    ∃ final names copied, portableMode mode = some final ∧
      readPortableDirectory context.unicode entries = some names ∧
      copyEntries context source transfers path entries = some copied ∧
      copy = .directory final (.ofList ((sortByKey copied).map encoded)) := by
  rw [copyTreeEntry] at h
  obtain ⟨_, -, h⟩ := Option.bind_eq_some_iff.mp h
  obtain ⟨final, portable, h⟩ := Option.bind_eq_some_iff.mp h
  obtain ⟨names, read, h⟩ := Option.bind_eq_some_iff.mp h
  obtain ⟨copied, copies, same⟩ := Option.bind_eq_some_iff.mp h
  exact ⟨final, names, copied, portable, read, copies, (Option.some.inj same).symm⟩

theorem copyTreeEntry_file {path : List JsString} {mode nlink : Nat} {bytes : Bytes} {copy : Node}
    (h : copyTreeEntry context source transfers path (.file mode nlink bytes) = some copy) :
    ∃ final, portableMode mode = some final ∧ nlink = 1 ∧ copy = .file final 1 bytes := by
  rw [copyTreeEntry] at h
  obtain ⟨_, -, h⟩ := Option.bind_eq_some_iff.mp h
  obtain ⟨_, single, h⟩ := Option.bind_eq_some_iff.mp h
  obtain ⟨final, portable, h⟩ := Option.bind_eq_some_iff.mp h
  obtain ⟨copied, contents, same⟩ := Option.bind_eq_some_iff.mp h
  obtain rfl := copyFileContents_sound (Nat.zero_le _) contents
  exact ⟨final, portable, ProviderState.ensure_eq_some_iff.mp single, (Option.some.inj same).symm⟩

theorem copyTreeEntry_symlink {path : List JsString} {nlink : Nat} {bytes : Bytes} {copy : Node}
    (h : copyTreeEntry context source transfers path (.symlink nlink bytes) = some copy) :
    ∃ target, nlink = 1 ∧ readPortableSymlink bytes = some target ∧
      assertPortableSymlink context source path.tail target = some () ∧ copy = .symlink 1 bytes := by
  rw [copyTreeEntry] at h
  obtain ⟨_, single, h⟩ := Option.bind_eq_some_iff.mp h
  obtain ⟨target, read, h⟩ := Option.bind_eq_some_iff.mp h
  obtain ⟨_, portable, same⟩ := Option.bind_eq_some_iff.mp h
  rw [(readPortableSymlink_eq_some read).2] at same
  exact ⟨target, ProviderState.ensure_eq_some_iff.mp single, read, portable, (Option.some.inj same).symm⟩

theorem object_copy {path : List JsString} {node copy : Node}
    (h : copyTreeEntry context source transfers path node = some copy) : copy.object = node.object := by
  have again {mode final : Nat} (portable : portableMode mode = some final) : final &&& 0o777 = mode &&& 0o777 := by
    rw [(portableMode_eq_some (portableMode_idem portable)).2, (portableMode_eq_some portable).2]
  cases node with
  | directory mode entries =>
    obtain ⟨final, names, copied, portable, -, -, rfl⟩ := copyTreeEntry_directory h
    exact congrArg Object.directory (again portable)
  | file mode nlink bytes =>
    obtain ⟨final, portable, -, rfl⟩ := copyTreeEntry_file h
    exact congrArg (Object.file · bytes) (again portable)
  | symlink nlink bytes =>
    obtain ⟨target, -, -, -, rfl⟩ := copyTreeEntry_symlink h
    rfl
  | special =>
    rw [copyTreeEntry] at h
    cases h

theorem entry_copy {path : List JsString} {node copy : Node}
    (h : copyTreeEntry context source transfers path node = some copy) (name : Bytes) :
    (node.child? name = none → copy.child? name = none) ∧
      ∀ child, node.child? name = some child → ∃ entry childCopy, copy.child? name = some childCopy ∧
        encodeUtf8 entry = name ∧ copyTreeEntry context source transfers (entry :: path) child = some childCopy := by
  cases node with
  | directory mode entries =>
    obtain ⟨final, names, copied, -, read, copies, rfl⟩ := copyTreeEntry_directory h
    have all := copyEntries_eq_some copies
    obtain ⟨decoded, portable⟩ := readPortableDirectory_eq_some.mp read
    have distinct : ((copied.map encoded).map Prod.fst).Nodup := by
      rw [(names_eq all).2]
      exact (names_nodup decoded portable).2
    have sorted : (Node.directory final (.ofList ((sortByKey copied).map encoded))).child? name =
        (copied.map encoded).lookup name := by
      rw [Node.child?, toList_ofList]
      exact (lookup_perm distinct ((sortByKey_perm copied).map encoded).symm).symm
    rw [sorted]
    exact lookup_copies all name
  | file mode nlink bytes =>
    obtain ⟨final, -, -, rfl⟩ := copyTreeEntry_file h
    exact ⟨fun _ => rfl, fun _ never => by cases never⟩
  | symlink nlink bytes =>
    obtain ⟨target, -, -, -, rfl⟩ := copyTreeEntry_symlink h
    exact ⟨fun _ => rfl, fun _ never => by cases never⟩
  | special =>
    rw [copyTreeEntry] at h
    cases h

/-- Every object of the source was copied, to the same path, and the copy has no others. -/
theorem at_copy {copy : Node} (h : copyTreeEntry context source transfers [] source = some copy) (path : List Bytes) :
    (source.at? path = none → copy.at? path = none) ∧
      ∀ node, source.at? path = some node → ∃ texts nodeCopy, texts.map encodeUtf8 = path ∧
        copy.at? path = some nodeCopy ∧ copyTreeEntry context source transfers texts node = some nodeCopy := by
  induction path with
  | nil =>
    refine ⟨fun never => (by cases never), fun node found => ?_⟩
    obtain rfl := Option.some.inj found
    exact ⟨[], copy, rfl, rfl, h⟩
  | cons name place ih =>
    cases found : source.at? place with
    | none =>
      have gone : copy.at? (name :: place) = none := by
        rw [Node.at?, ih.1 found]
        rfl
      refine ⟨fun _ => gone, fun node there => ?_⟩
      rw [Node.at?, found] at there
      cases there
    | some parent =>
      obtain ⟨texts, parentCopy, same, foundCopy, copied⟩ := ih.2 parent found
      rw [Node.at?, Node.at?, found, foundCopy]
      obtain ⟨gone, kept⟩ := entry_copy copied name
      refine ⟨gone, fun node there => ?_⟩
      obtain ⟨entry, nodeCopy, entryCopy, text, copiedNode⟩ := kept node there
      exact ⟨entry :: texts, nodeCopy, by rw [List.map_cons, text, same], entryCopy, copiedNode⟩

theorem objects_copy {copy : Node} (h : copyTreeEntry context source transfers [] source = some copy) :
    copy.objects = source.objects := by
  funext path
  obtain ⟨gone, kept⟩ := at_copy h path
  unfold Node.objects
  cases found : source.at? path with
  | none => rw [gone found]
  | some node =>
    obtain ⟨texts, nodeCopy, -, foundCopy, copied⟩ := kept node found
    rw [foundCopy]
    exact congrArg some (object_copy copied)

end Copies

/-! ### Digests of copies -/

section Digest

variable {context : Context} {source : Node} {transfers : List JsString → List (Nat × List Nat)}
  {checkAccess : List JsString → Bool}

/-- The fields of an entry. -/
def hashEntry (unicode : Unicode) (checkAccess : List JsString → Bool) (path : List JsString)
    (entry : Bytes × Node) : Option (JsString × List Bytes) := do
  let name ← decodePortablePathBytes entry.1
  let fields ← hashTreeEntry unicode checkAccess (name :: path) entry.2
  some (name, fields)

theorem hashEntries_eq_mapM {unicode : Unicode} {path : List JsString} : ∀ entries : Entries,
    hashEntries unicode checkAccess path entries = entries.toList.mapM (hashEntry unicode checkAccess path)
  | .nil => by
    rw [hashEntries, Entries.toList, List.mapM_nil]
    rfl
  | .cons name node rest => by
    rw [hashEntries, Entries.toList, List.mapM_cons, hashEntries_eq_mapM rest]
    unfold hashEntry
    cases decodePortablePathBytes name with
    | none => rfl
    | some entry =>
      simp only [Option.bind_eq_bind, Option.bind_some]
      cases hashTreeEntry unicode checkAccess (entry :: path) node with
      | none => rfl
      | some fields => rfl

theorem mapM_perm {α β : Type} {f : α → Option β} {as others : List α} (perm : as.Perm others) {bs : List β}
    (h : as.mapM f = some bs) : ∃ cs, others.mapM f = some cs ∧ bs.Perm cs := by
  induction perm generalizing bs with
  | nil => exact ⟨bs, h, .refl bs⟩
  | cons a _ ih =>
    rw [List.mapM_cons] at h
    obtain ⟨b, first, h⟩ := Option.bind_eq_some_iff.mp h
    obtain ⟨rest, mapped, same⟩ := Option.bind_eq_some_iff.mp h
    obtain rfl := Option.some.inj same
    obtain ⟨cs, mappedOthers, permuted⟩ := ih mapped
    refine ⟨b :: cs, ?_, permuted.cons b⟩
    rw [List.mapM_cons, first, mappedOthers]
    rfl
  | swap a other rest =>
    rw [List.mapM_cons, List.mapM_cons] at h
    obtain ⟨b, first, h⟩ := Option.bind_eq_some_iff.mp h
    obtain ⟨bs, h, same⟩ := Option.bind_eq_some_iff.mp h
    obtain ⟨c, second, h⟩ := Option.bind_eq_some_iff.mp h
    obtain ⟨ds, mapped, inner⟩ := Option.bind_eq_some_iff.mp h
    obtain rfl := Option.some.inj inner
    obtain rfl := Option.some.inj same
    refine ⟨c :: b :: ds, ?_, .swap c b ds⟩
    rw [List.mapM_cons, List.mapM_cons, first, second, mapped]
    rfl
  | trans _ _ first second =>
    obtain ⟨cs, mapped, permuted⟩ := first h
    obtain ⟨ds, mappedAgain, permutedAgain⟩ := second mapped
    exact ⟨ds, mappedAgain, permuted.trans permutedAgain⟩

theorem sortByKey_perm_eq {α : Type} {as bs : List (JsString × α)} (distinct : (as.map Prod.fst).Nodup)
    (perm : as.Perm bs) : sortByKey as = sortByKey bs :=
  sortByKey_eq_of_perm (sortByKey_sorted ((perm.map Prod.fst).nodup_iff.mp distinct))
    (perm.trans (sortByKey_perm bs).symm)

theorem hashEntry_names {unicode : Unicode} {path : List JsString} {entries : List (Bytes × Node)}
    {hashed : List (JsString × List Bytes)} (h : entries.mapM (hashEntry unicode checkAccess path) = some hashed) :
    (entries.map Prod.fst).mapM decodePortablePathBytes = some (hashed.map Prod.fst) := by
  have all := mapM_eq_some_iff.mp h
  clear h
  induction all with
  | nil => rfl
  | cons first _ ih =>
    obtain ⟨name, decoded, first⟩ := Option.bind_eq_some_iff.mp first
    obtain ⟨fields, -, same⟩ := Option.bind_eq_some_iff.mp first
    obtain rfl := Option.some.inj same
    rw [List.map_cons, List.mapM_cons, decoded, ih]
    rfl

/-- In what order a directory lists its entries does not change what is hashed. -/
theorem hash_perm {unicode : Unicode} {path : List JsString} {entries others : List (Bytes × Node)}
    {names : List JsString} (decoded : (entries.map Prod.fst).mapM decodePortablePathBytes = some names)
    (distinct : names.Nodup) (perm : entries.Perm others) :
    (entries.mapM (hashEntry unicode checkAccess path)).map sortByKey =
      (others.mapM (hashEntry unicode checkAccess path)).map sortByKey := by
  cases hashed : entries.mapM (hashEntry unicode checkAccess path) with
  | some fields =>
    obtain ⟨again, hashedAgain, permuted⟩ := mapM_perm perm hashed
    have same := hashEntry_names hashed
    rw [decoded] at same
    obtain rfl := Option.some.inj same
    rw [hashedAgain]
    exact congrArg some (sortByKey_perm_eq distinct permuted)
  | none =>
    cases hashedAgain : others.mapM (hashEntry unicode checkAccess path) with
    | none => rfl
    | some fields =>
      obtain ⟨never, hashedFirst, -⟩ := mapM_perm perm.symm hashedAgain
      rw [hashed] at hashedFirst
      cases hashedFirst

mutual

/-- The copy of an object is hashed like the object. -/
theorem hash_copy : ∀ {path : List JsString} {node copy : Node},
    copyTreeEntry context source transfers path node = some copy →
      hashTreeEntry context.unicode checkAccess path copy = hashTreeEntry context.unicode checkAccess path node
  | path, .symlink nlink bytes, copy, h => by
    obtain ⟨target, rfl, -, -, rfl⟩ := copyTreeEntry_symlink h
    rfl
  | path, .file mode nlink bytes, copy, h => by
    obtain ⟨final, portable, rfl, rfl⟩ := copyTreeEntry_file h
    rw [hashTreeEntry, hashTreeEntry, portable, portableMode_idem portable]
  | path, .special, copy, h => by
    rw [copyTreeEntry] at h
    cases h
  | path, .directory mode entries, copy, h => by
    obtain ⟨final, names, copied, portable, read, copies, rfl⟩ := copyTreeEntry_directory h
    have all := copyEntries_eq_some copies
    have same := hash_copies copies
    obtain ⟨decoded, portableNames⟩ := readPortableDirectory_eq_some.mp read
    have perm : ((sortByKey copied).map encoded).Perm (copied.map encoded) := (sortByKey_perm copied).map encoded
    have decodedCopies : ((copied.map encoded).map Prod.fst).mapM decodePortablePathBytes = some names := by
      rw [(names_eq all).2, decoded]
    -- the copy is read like the directory
    obtain ⟨others, decodedSorted, permuted⟩ := mapM_perm (perm.symm.map Prod.fst) decodedCopies
    have readCopy : readPortableDirectory context.unicode (.ofList ((sortByKey copied).map encoded)) = some others := by
      rw [readPortableDirectory_eq_some, toList_ofList]
      refine ⟨decodedSorted, fun name inside => portableNames.1 name (permuted.mem_iff.mpr inside), ?_⟩
      exact (permuted.map _).nodup_iff.mp portableNames.2
    have hashed : ((copied.map encoded).mapM (hashEntry context.unicode checkAccess path)).map sortByKey =
        (((sortByKey copied).map encoded).mapM (hashEntry context.unicode checkAccess path)).map sortByKey :=
      hash_perm decodedCopies (names_nodup decoded portableNames).1 perm.symm
    rw [hashTreeEntry, hashTreeEntry, portable, portableMode_idem portable, read, readCopy, hashEntries_eq_mapM,
      hashEntries_eq_mapM, toList_ofList, ← same]
    simp only [Option.bind_eq_bind, Option.bind_some]
    cases first : (copied.map encoded).mapM (hashEntry context.unicode checkAccess path) with
    | none =>
      rw [first] at hashed
      rw [Option.map_eq_none_iff.mp hashed.symm]
    | some fields =>
      rw [first] at hashed
      obtain ⟨again, second, sorted⟩ := Option.map_eq_some_iff.mp hashed.symm
      rw [second]
      simp only [Option.bind_some, sorted]

theorem hash_copies : ∀ {path : List JsString} {entries : Entries} {copied : List (JsString × Node)},
    copyEntries context source transfers path entries = some copied →
      (copied.map encoded).mapM (hashEntry context.unicode checkAccess path) =
        entries.toList.mapM (hashEntry context.unicode checkAccess path)
  | path, .nil, copied, h => by
    rw [copyEntries] at h
    obtain rfl := Option.some.inj h
    rfl
  | path, .cons name node rest, copied, h => by
    rw [copyEntries] at h
    obtain ⟨entry, decoded, h⟩ := Option.bind_eq_some_iff.mp h
    obtain ⟨first, copiedFirst, h⟩ := Option.bind_eq_some_iff.mp h
    obtain ⟨others, copiedOthers, same⟩ := Option.bind_eq_some_iff.mp h
    obtain rfl := Option.some.inj same
    have raw : encodeUtf8 entry = name := (decodePortablePathBytes_eq_some.mp decoded).2
    have head : hashEntry context.unicode checkAccess path (encoded (entry, first)) =
        hashEntry context.unicode checkAccess path (name, node) := by
      unfold hashEntry encoded
      dsimp only
      rw [raw, decoded]
      simp only [Option.bind_eq_bind, Option.bind_some]
      rw [hash_copy copiedFirst]
    rw [List.map_cons, Entries.toList, List.mapM_cons, List.mapM_cons, head, hash_copies copiedOthers]

end

end Digest

/-! ### The laws -/

section Laws

variable {context : Context} {transfers : List JsString → List (Nat × List Nat)} {before after : Disk}

/-- What an object is to be that is copied. -/
def Node.Portable (unicode : Unicode) : Node → Prop
  | .directory _ entries => ∃ names, (entries.toList.map Prod.fst).mapM decodePortablePathBytes = some names ∧
      PortableNames unicode names
  | .file _ nlink _ => nlink = 1
  | .symlink nlink _ => nlink = 1
  | .special => False

structure CopyLaws (unicode : Unicode) (before after : Disk) (copy : Node) : Prop where
  source : after.source = before.source
  destination : after.destination = some copy
  /-- The same objects at the same paths, with their modes, contents and targets. -/
  objects : copy.objects = before.source.objects
  digest : ∀ checkAccess, digestTree unicode checkAccess copy = digestTree unicode checkAccess before.source
  /-- A relative link ends inside of the copy at the object at which it ends inside of the source, and nowhere
  else. Paths are those from the root, so it does not matter where the root is. -/
  links : ∀ name place target, copy.objects (name :: place) = some (.symlink target) → target.head? ≠ some 47 →
    ∃ last, Resolves before.source.objects place (target.splitOn 47) last ∧
      (before.source.objects last).isSome = true ∧ Resolves copy.objects place (target.splitOn 47) last ∧
      ∀ other, Resolves copy.objects place (target.splitOn 47) other → other = last
  /-- No hard links, no special files and no names that are aliases of each other. -/
  portable : ∀ path node, before.source.at? path = some node → node.Portable unicode

theorem portable_of_copy {source : Node} {path : List JsString} {node copy : Node}
    (h : copyTreeEntry context source transfers path node = some copy) : node.Portable context.unicode := by
  cases node with
  | directory mode entries =>
    obtain ⟨final, names, copied, -, read, -, -⟩ := copyTreeEntry_directory h
    exact ⟨names, readPortableDirectory_eq_some.mp read⟩
  | file mode nlink bytes =>
    obtain ⟨final, -, single, -⟩ := copyTreeEntry_file h
    exact single
  | symlink nlink bytes =>
    obtain ⟨target, single, -⟩ := copyTreeEntry_symlink h
    exact single
  | special =>
    rw [copyTreeEntry] at h
    cases h

theorem not_isAbsolute {bytes : Bytes} {target : JsString} (read : readPortableSymlink bytes = some target)
    (relative : bytes.head? ≠ some 47) : isAbsolute target ≠ true := by
  obtain ⟨-, rfl⟩ := readPortableSymlink_eq_some read
  intro absolute
  have slash : target.head? = some 47 := of_decide_eq_true absolute
  obtain ⟨rest, rfl⟩ := List.head?_eq_some_iff.mp slash
  rw [encodeUtf8_cons rfl] at relative
  exact relative rfl

/-- A relative link that is copied is resolved inside of the source. -/
theorem resolves_of_copy {source copy : Node} (h : copyTreeEntry context source transfers [] source = some copy)
    {name : Bytes} {place : List Bytes} {nlink : Nat} {target : Bytes}
    (found : source.at? (name :: place) = some (.symlink nlink target)) (relative : target.head? ≠ some 47) :
    ∃ last, Resolves source.objects place (target.splitOn 47) last := by
  obtain ⟨texts, nodeCopy, same, -, copied⟩ := (at_copy h (name :: place)).2 _ found
  obtain ⟨text, -, read, portable, -⟩ := copyTreeEntry_symlink copied
  obtain ⟨entry, directory, rfl, -, rfl⟩ := List.map_eq_cons_iff.mp same
  obtain ⟨mode, entries, above, -⟩ := directory_of_entry found
  rw [assertPortableSymlink, if_neg (not_isAbsolute read relative)] at portable
  obtain ⟨sourceTarget, -, portable⟩ := Option.bind_eq_some_iff.mp portable
  obtain ⟨destinationTarget, -, portable⟩ := Option.bind_eq_some_iff.mp portable
  obtain ⟨_, -, portable⟩ := Option.bind_eq_some_iff.mp portable
  obtain ⟨last, resolved, -⟩ := Option.bind_eq_some_iff.mp portable
  exact ⟨_, resolveSymlinkTarget_sound ⟨mode, entries, above⟩ read resolved⟩

/-- Every successful copy, with reads and writes of any size. -/
theorem copyLaws (h : copyStoppedTreeBetweenRoots context transfers before = some after) :
    ∃ copy, CopyLaws context.unicode before after copy := by
  obtain ⟨_, isDirectory, h⟩ := Option.bind_eq_some_iff.mp h
  obtain ⟨_, -, h⟩ := Option.bind_eq_some_iff.mp h
  obtain ⟨copy, copied, same⟩ := Option.bind_eq_some_iff.mp h
  obtain rfl := Option.some.inj same
  have objects := objects_copy copied
  refine ⟨copy, rfl, rfl, objects, ?_, ?_, ?_⟩
  · intro checkAccess
    unfold digestTree
    rw [hash_copy copied]
  · intro name place target found relative
    rw [objects] at found ⊢
    obtain ⟨node, there, link⟩ := Option.map_eq_some_iff.mp found
    cases node with
    | symlink nlink bytes =>
      obtain rfl := Object.symlink.inj link
      obtain ⟨last, resolved⟩ := resolves_of_copy copied there relative
      have inside : (before.source.objects place).isSome = true := objects_above name place (by rw [found]; rfl)
      exact ⟨last, resolved, resolved.isSome objects_above inside, resolved, fun _ other => other.unique resolved⟩
    | directory mode entries => cases link
    | file mode nlink bytes => cases link
    | special => cases link
  · intro path node found
    obtain ⟨texts, nodeCopy, -, -, copiedNode⟩ := (at_copy copied path).2 node found
    exact portable_of_copy copiedNode

end Laws

/-! ### A first copy -/

/-- The language on texts of ASCII. -/
def asciiUnicode : Unicode where
  normalizeNFC text := text
  toLowerCase text := text.map fun u => if 65 ≤ u ∧ u ≤ 90 then u + 32 else u
  toUpperCase text := text.map fun u => if 97 ≤ u ∧ u ≤ 122 then u - 32 else u

def firstContext : Context where
  unicode := asciiUnicode
  checkAccess _ := true
  sourceRoot := [js "source", js "work"]
  destinationRoot := [js "copy", js "work"]
  absoluteAccepted _ := false

/-- A file, and a directory with a link to it. -/
def firstSource : Node :=
  .directory 0o755 (.ofList [(encodeUtf8 (js "file"), .file 0o644 1 [104, 105]),
    (encodeUtf8 (js "bin"), .directory 0o700 (.ofList [(encodeUtf8 (js "link"), .symlink 1 (encodeUtf8 (js "../file")))]))])

/-- The file is read byte by byte, and one of the writes writes nothing. -/
def firstTransfers (path : List JsString) : List (Nat × List Nat) :=
  if path = [js "file"] then [(1, [1]), (1, [0, 1])] else []

theorem copyLaws_firstCopy : ∃ after copy,
    copyStoppedTreeBetweenRoots firstContext firstTransfers ⟨firstSource, none⟩ = some after ∧
      CopyLaws asciiUnicode ⟨firstSource, none⟩ after copy ∧
      copy.objects [encodeUtf8 (js "file")] = some (.file 0o644 [104, 105]) := by
  obtain ⟨after, copied⟩ : ∃ after,
      copyStoppedTreeBetweenRoots firstContext firstTransfers ⟨firstSource, none⟩ = some after := ⟨_, rfl⟩
  obtain ⟨copy, laws⟩ := copyLaws copied
  refine ⟨after, copy, copied, laws, ?_⟩
  rw [laws.objects]
  rfl

end PortableCodex.StoppedTree
