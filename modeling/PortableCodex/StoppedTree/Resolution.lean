import PortableCodex.StoppedTree.Tree

/-!
How the links of a tree are resolved.

`Resolves` says where a file system ends that follows a path from a directory, component by component, without
leaving the tree. It looks only at the objects at the paths of a tree, so trees with the same objects resolve
their links alike. `resolveSymlinkTarget` succeeds only where the file system does, and ends at the same place.
-/

namespace PortableCodex.StoppedTree

open Js

/-! ### Paths of a file system -/

/-- What two trees have in common that are the same. -/
inductive Object where
  | directory (mode : Nat)
  | file (mode : Nat) (bytes : Bytes)
  | symlink (target : Bytes)
  | special
deriving DecidableEq

def Node.object : Node → Object
  | .directory mode _ => .directory (mode &&& 0o777)
  | .file mode _ bytes => .file (mode &&& 0o777) bytes
  | .symlink _ target => .symlink target
  | .special => .special

/-- The objects of a tree at the paths from its root. -/
def Node.objects (root : Node) (path : List Bytes) : Option Object := (root.at? path).map Node.object

/-- Where a file system ends that follows components from a directory, without leaving the tree. -/
inductive Resolves (objects : List Bytes → Option Object) : List Bytes → List Bytes → List Bytes → Prop where
  | done {place} : Resolves objects place [] place
  | here {place component pending last mode} : component = [] ∨ component = [46] →
      objects place = some (.directory mode) → Resolves objects place pending last →
      Resolves objects place (component :: pending) last
  | parent {name place pending last mode} : objects (name :: place) = some (.directory mode) →
      Resolves objects place pending last → Resolves objects (name :: place) ([46, 46] :: pending) last
  | entry {place component pending last object} : component ≠ [] → component ≠ [46] → component ≠ [46, 46] →
      objects (component :: place) = some object → (∀ target, object ≠ .symlink target) →
      Resolves objects (component :: place) pending last → Resolves objects place (component :: pending) last
  | link {place component pending last target} : component ≠ [] → component ≠ [46] → component ≠ [46, 46] →
      objects (component :: place) = some (.symlink target) → target.head? ≠ some 47 →
      Resolves objects place (target.splitOn 47 ++ pending) last →
      Resolves objects place (component :: pending) last

theorem Resolves.unique {objects : List Bytes → Option Object} {place pending last other : List Bytes}
    (h : Resolves objects place pending last) (again : Resolves objects place pending other) : last = other := by
  induction h with
  | done =>
    cases again
    rfl
  | here component _ _ ih =>
    cases again with
    | here _ _ rest => exact ih rest
    | parent _ _ => rcases component with never | never <;> cases never
    | entry some dot _ _ _ _ => exact absurd component (not_or.mpr ⟨some, dot⟩)
    | link some dot _ _ _ _ => exact absurd component (not_or.mpr ⟨some, dot⟩)
  | parent _ _ ih =>
    cases again with
    | here component _ _ => rcases component with never | never <;> cases never
    | parent _ rest => exact ih rest
    | entry _ _ dots _ _ _ => exact absurd rfl dots
    | link _ _ dots _ _ _ => exact absurd rfl dots
  | entry some dot dots found plain _ ih =>
    cases again with
    | here component _ _ => exact absurd component (not_or.mpr ⟨some, dot⟩)
    | parent _ _ => exact absurd rfl dots
    | entry _ _ _ _ _ rest => exact ih rest
    | link _ _ _ foundLink _ _ =>
      obtain rfl := Option.some.inj (found.symm.trans foundLink)
      exact absurd rfl (plain _)
  | link some dot dots found _ _ ih =>
    cases again with
    | here component _ _ => exact absurd component (not_or.mpr ⟨some, dot⟩)
    | parent _ _ => exact absurd rfl dots
    | entry _ _ _ foundEntry plain _ =>
      obtain rfl := Option.some.inj (found.symm.trans foundEntry)
      exact absurd rfl (plain _)
    | link _ _ _ foundLink _ rest =>
      cases Option.some.inj (found.symm.trans foundLink)
      exact ih rest

/-- A path ends at an object, if the objects above an object are there. -/
theorem Resolves.isSome {objects : List Bytes → Option Object} {place pending last : List Bytes}
    (h : Resolves objects place pending last)
    (above : ∀ name place, (objects (name :: place)).isSome = true → (objects place).isSome = true)
    (there : (objects place).isSome = true) : (objects last).isSome = true := by
  induction h with
  | done => exact there
  | here _ _ _ ih => exact ih there
  | parent _ _ ih => exact ih (above _ _ there)
  | entry _ _ _ found _ _ ih => exact ih (by rw [found]; rfl)
  | link _ _ _ _ _ _ ih => exact ih there

/-! ### Texts and bytes -/

theorem splitOn_slash {α : Type} [BEq α] [LawfulBEq α] (slash : α) (rest : List α) :
    (slash :: rest).splitOn slash = [] :: rest.splitOn slash := by
  rw [List.splitOn, List.splitOnP_cons_eq_if_modifyHead, if_pos (beq_self_eq_true slash)]
  rfl

theorem splitOn_other {α : Type} [BEq α] [LawfulBEq α] {slash a : α} (other : a ≠ slash) {rest head : List α}
    {tail : List (List α)} (split : rest.splitOn slash = head :: tail) :
    (a :: rest).splitOn slash = (a :: head) :: tail := by
  rw [List.splitOn] at split
  rw [List.splitOn, List.splitOnP_cons_eq_if_modifyHead, if_neg (by rwa [beq_iff_eq]), split]
  rfl

theorem splitOn_append {bytes rest head : Bytes} {tail : List Bytes} (plain : 47 ∉ bytes)
    (split : rest.splitOn 47 = head :: tail) : (bytes ++ rest).splitOn 47 = (bytes ++ head) :: tail := by
  induction bytes with
  | nil => exact split
  | cons b bytes ih =>
    obtain ⟨other, others⟩ := not_or.mp (fun inside => plain (List.mem_cons.mpr inside))
    exact splitOn_other (fun same => other same.symm) (ih others)

theorem byte_ne_slash {n : Nat} (high : 0x80 ≤ n) (low : n < 0x100) : byte n ≠ 47 := by
  intro same
  have value := congrArg UInt8.toNat same
  rw [byte_toNat low] at value
  have slash : (47 : UInt8).toNat = 47 := rfl
  omega

theorem encodeUnit_plain {u : UInt16} (other : u ≠ 47) : 47 ∉ encodeUnit u := by
  have small := u.toNat_lt
  unfold encodeUnit
  intro inside
  split at inside
  · rename_i ascii
    have same := List.mem_singleton.mp inside
    have value := congrArg UInt8.toNat same
    rw [byte_toNat (by omega)] at value
    exact other (UInt16.toNat_inj.mp value.symm)
  · rename_i wide
    split at inside
    · simp only [List.mem_cons, List.not_mem_nil, or_false] at inside
      rcases inside with same | same
      · exact byte_ne_slash (by omega) (by omega) same.symm
      · exact byte_ne_slash (by omega) (by omega) same.symm
    · split at inside
      · revert inside
        decide
      · simp only [List.mem_cons, List.not_mem_nil, or_false] at inside
        rcases inside with same | same | same
        · exact byte_ne_slash (by omega) (by omega) same.symm
        · exact byte_ne_slash (by omega) (by omega) same.symm
        · exact byte_ne_slash (by omega) (by omega) same.symm

theorem encodePair_plain {u v : UInt16} (high : isHighSurrogate u = true) (low : isLowSurrogate v = true) :
    47 ∉ encodePair u v := by
  have first : 0xD800 ≤ u.toNat ∧ u.toNat ≤ 0xDBFF := by simpa [isHighSurrogate] using high
  have second : 0xDC00 ≤ v.toNat ∧ v.toNat ≤ 0xDFFF := by simpa [isLowSurrogate] using low
  have bound : pairCodePoint u v < 0x110000 := by
    unfold pairCodePoint
    omega
  intro inside
  simp only [encodePair, List.mem_cons, List.not_mem_nil, or_false] at inside
  rcases inside with same | same | same | same
  · exact byte_ne_slash (by omega) (by omega) same.symm
  · exact byte_ne_slash (by omega) (by omega) same.symm
  · exact byte_ne_slash (by omega) (by omega) same.symm
  · exact byte_ne_slash (by omega) (by omega) same.symm

theorem encodeUtf8_single {u : UInt16} {rest : JsString}
    (single : ∀ v ∈ rest.head?, (isHighSurrogate u && isLowSurrogate v) = false) :
    encodeUtf8 (u :: rest) = encodeUnit u ++ encodeUtf8 rest := by
  cases rest with
  | nil => rw [encodeUtf8, encodeUtf8, List.append_nil]
  | cons v rest => rw [encodeUtf8, single v rfl, if_neg Bool.false_ne_true]

/-- The components of a text are those of its bytes. -/
theorem splitOn_encodeUtf8 (s : JsString) : (encodeUtf8 s).splitOn 47 = (s.splitOn 47).map encodeUtf8 := by
  have unit (u : UInt16) (rest : JsString)
      (single : ∀ v ∈ rest.head?, (isHighSurrogate u && isLowSurrogate v) = false)
      (ih : (encodeUtf8 rest).splitOn 47 = (rest.splitOn 47).map encodeUtf8) :
      (encodeUtf8 (u :: rest)).splitOn 47 = ((u :: rest).splitOn 47).map encodeUtf8 := by
    rw [encodeUtf8_single single]
    by_cases slash : u = 47
    · subst slash
      have bytes : encodeUnit 47 = [47] := rfl
      rw [splitOn_slash, bytes, List.singleton_append, splitOn_slash, ih]
      rfl
    · -- the first component goes on behind `u`; it is empty or begins as the rest does
      obtain ⟨head, tail, split, first⟩ : ∃ head tail, rest.splitOn 47 = head :: tail ∧
          ∀ v ∈ head.head?, v ∈ rest.head? := by
        cases rest with
        | nil => exact ⟨[], [], rfl, fun _ never => by cases never⟩
        | cons v rest =>
          by_cases next : v = 47
          · subst next
            exact ⟨[], _, splitOn_slash 47 rest, fun _ never => by cases never⟩
          · cases others : rest.splitOn 47 with
            | nil => exact absurd others (List.splitOnP_ne_nil _ _)
            | cons head tail => exact ⟨v :: head, tail, splitOn_other next others, fun _ same => same⟩
      rw [split, List.map_cons] at ih
      rw [splitOn_other slash split, splitOn_append (encodeUnit_plain slash) ih, List.map_cons,
        encodeUtf8_single fun v inside => single v (first v inside)]
  induction s using encodeUtf8.induct with
  | case1 => rfl
  | case2 u => exact unit u [] (fun _ never => by cases never) rfl
  | case3 u v rest pair ih =>
    have both := Bool.and_eq_true_iff.mp pair
    have high : u ≠ 47 := by
      rintro rfl
      exact absurd both.1 (by decide)
    have low : v ≠ 47 := by
      rintro rfl
      exact absurd both.2 (by decide)
    cases split : rest.splitOn 47 with
    | nil => exact absurd split (List.splitOnP_ne_nil _ _)
    | cons head tail =>
      rw [split, List.map_cons] at ih
      rw [encodeUtf8, if_pos pair, splitOn_append (encodePair_plain both.1 both.2) ih,
        splitOn_other high (splitOn_other low split), List.map_cons, encodeUtf8, if_pos pair]
  | case4 u v rest single ih =>
    refine unit u (v :: rest) (fun w inside => ?_) ih
    obtain rfl := Option.some.inj inside
    exact Bool.eq_false_iff.mpr single

/-! ### Resolution -/

theorem toList_ofList (entries : List (Bytes × Node)) : (Entries.ofList entries).toList = entries := by
  induction entries with
  | nil => rfl
  | cons entry entries ih => rw [Entries.ofList, Entries.toList, ih]

theorem decodePortablePathBytes_eq_some {bytes : Bytes} {value : JsString} :
    decodePortablePathBytes bytes = some value ↔ decodeUtf8 bytes = value ∧ encodeUtf8 value = bytes := by
  unfold decodePortablePathBytes
  constructor
  · intro decoded
    obtain ⟨_, kept, same⟩ := Option.bind_eq_some_iff.mp decoded
    obtain rfl := Option.some.inj same
    exact ⟨rfl, ProviderState.ensure_eq_some_iff.mp kept⟩
  · rintro ⟨rfl, kept⟩
    dsimp only
    rw [ProviderState.ensure_pos kept]
    rfl

theorem readPortableSymlink_eq_some {bytes : Bytes} {value : JsString} (h : readPortableSymlink bytes = some value) :
    decodeUtf8 bytes = value ∧ encodeUtf8 value = bytes := decodePortablePathBytes_eq_some.mp h

theorem decodeUtf8_slash (rest : Bytes) : decodeUtf8 (47 :: rest) = 47 :: decodeUtf8 rest :=
  Decoder.run_cons (Decoder.step_ascii (by decide : 47 < 0x80)) rest

/-- A relative text has relative bytes. -/
theorem head?_ne_slash {bytes : Bytes} {target : JsString} (read : readPortableSymlink bytes = some target)
    (relative : isAbsolute target ≠ true) : bytes.head? ≠ some 47 := by
  obtain ⟨rfl, -⟩ := readPortableSymlink_eq_some read
  intro slash
  obtain ⟨rest, rfl⟩ := List.head?_eq_some_iff.mp slash
  rw [decodeUtf8_slash] at relative
  exact relative rfl

/-- What the names of a directory are to be. -/
def PortableNames (unicode : Unicode) (names : List JsString) : Prop :=
  (∀ name ∈ names, PortableName unicode name) ∧ (names.map (portableKey unicode)).Nodup

theorem foldlM_assertPortableName {unicode : Unicode} {names keys last : List JsString} :
    names.foldlM (assertPortableName unicode) keys = some last ↔
      (∀ name ∈ names, PortableName unicode name) ∧ (names.map (portableKey unicode)).Nodup ∧
        (∀ name ∈ names, portableKey unicode name ∉ keys) ∧
        last = (names.map (portableKey unicode)).reverse ++ keys := by
  induction names generalizing keys with
  | nil =>
    rw [List.foldlM_nil]
    constructor
    · rintro same
      obtain rfl := Option.some.inj same
      exact ⟨fun _ never => (by cases never), .nil, fun _ never => (by cases never), rfl⟩
    · rintro ⟨-, -, -, rfl⟩
      rfl
  | cons name names ih =>
    rw [List.foldlM_cons]
    constructor
    · intro whole
      obtain ⟨next, first, rest⟩ := Option.bind_eq_some_iff.mp whole
      obtain ⟨_, portable, first⟩ := Option.bind_eq_some_iff.mp first
      obtain ⟨_, new, same⟩ := Option.bind_eq_some_iff.mp first
      obtain rfl := Option.some.inj same
      have portable := ProviderState.ensure_eq_some_iff.mp portable
      have new := ProviderState.ensure_eq_some_iff.mp new
      obtain ⟨portables, distinct, others, rfl⟩ := ih.mp rest
      refine ⟨?_, ?_, ?_, ?_⟩
      · intro other inside
        rcases List.mem_cons.mp inside with rfl | later
        · exact portable
        · exact portables other later
      · refine List.nodup_cons.mpr ⟨fun inside => ?_, distinct⟩
        obtain ⟨other, later, same⟩ := List.mem_map.mp inside
        exact others other later (by rw [same]; exact List.mem_cons_self)
      · intro other inside
        rcases List.mem_cons.mp inside with rfl | later
        · exact new
        · exact fun earlier => others other later (List.mem_cons_of_mem _ earlier)
      · rw [List.map_cons, List.reverse_cons, List.append_assoc]
        rfl
    · rintro ⟨portables, distinct, others, rfl⟩
      obtain ⟨fresh, distinct⟩ := List.nodup_cons.mp distinct
      have first : assertPortableName unicode keys name = some (portableKey unicode name :: keys) := by
        unfold assertPortableName
        rw [ProviderState.ensure_pos (portables name List.mem_cons_self),
          ProviderState.ensure_pos (others name List.mem_cons_self)]
        rfl
      rw [first]
      refine ih.mpr ⟨fun other later => portables other (List.mem_cons_of_mem _ later), distinct, ?_, ?_⟩
      · intro other later inside
        rcases List.mem_cons.mp inside with same | earlier
        · exact fresh (List.mem_map.mpr ⟨other, later, same⟩)
        · exact others other (List.mem_cons_of_mem _ later) earlier
      · rw [List.map_cons, List.reverse_cons, List.append_assoc]
        rfl

theorem readPortableDirectory_eq_some {unicode : Unicode} {entries : Entries} {names : List JsString} :
    readPortableDirectory unicode entries = some names ↔
      (entries.toList.map Prod.fst).mapM decodePortablePathBytes = some names ∧ PortableNames unicode names := by
  unfold readPortableDirectory assertPortableDirectoryNames
  constructor
  · intro read
    obtain ⟨decoded, readAll, read⟩ := Option.bind_eq_some_iff.mp read
    obtain ⟨_, checked, same⟩ := Option.bind_eq_some_iff.mp read
    obtain ⟨keys, checked, -⟩ := Option.bind_eq_some_iff.mp checked
    obtain ⟨portable, distinct, -, -⟩ := foldlM_assertPortableName.mp checked
    cases Option.some.inj same
    exact ⟨readAll, portable, distinct⟩
  · rintro ⟨readAll, portable, distinct⟩
    have checked := foldlM_assertPortableName.mpr
      ⟨portable, distinct, fun _ _ never => List.not_mem_nil never, rfl⟩
    rw [readAll]
    simp only [Option.bind_eq_bind, Option.bind_some, checked]

section Walk

variable {unicode : Unicode} {root : Node}

theorem objects_directory {path : List Bytes} {mode : Nat} {entries : Entries}
    (found : root.at? path = some (.directory mode entries)) :
    root.objects path = some (.directory (mode &&& 0o777)) := by
  rw [Node.objects, found]
  rfl

/-- What has an object below it is a directory. -/
theorem directory_of_entry {name : Bytes} {place : List Bytes} {node : Node}
    (found : root.at? (name :: place) = some node) :
    ∃ mode entries, root.at? place = some (.directory mode entries) ∧ entries.toList.lookup name = some node := by
  obtain ⟨parent, above, inside⟩ := Option.bind_eq_some_iff.mp found
  cases parent with
  | directory mode entries => exact ⟨mode, entries, above, inside⟩
  | file mode nlink bytes => cases inside
  | symlink nlink target => cases inside
  | special => cases inside

theorem objects_above (name : Bytes) (place : List Bytes) (there : (root.objects (name :: place)).isSome = true) :
    (root.objects place).isSome = true := by
  obtain ⟨object, found⟩ := Option.isSome_iff_exists.mp there
  obtain ⟨node, found, -⟩ := Option.map_eq_some_iff.mp found
  obtain ⟨mode, entries, above, -⟩ := directory_of_entry found
  rw [objects_directory above]
  rfl

/-- A directory at a path of texts. -/
def DirectoryAt (root : Node) (path : List JsString) : Prop :=
  ∃ mode entries, root.at? (path.map encodeUtf8) = some (.directory mode entries)

theorem mapM_eq_some_iff {α β : Type} {f : α → Option β} {as : List α} {bs : List β} :
    as.mapM f = some bs ↔ List.Forall₂ (fun a b => f a = some b) as bs := by
  induction as generalizing bs with
  | nil =>
    rw [List.mapM_nil]
    constructor
    · rintro same
      obtain rfl := Option.some.inj same
      exact .nil
    · rintro ⟨⟩
      rfl
  | cons a as ih =>
    rw [List.mapM_cons]
    constructor
    · intro whole
      obtain ⟨b, first, whole⟩ := Option.bind_eq_some_iff.mp whole
      obtain ⟨others, rest, same⟩ := Option.bind_eq_some_iff.mp whole
      obtain rfl := Option.some.inj same
      exact .cons first (ih.mp rest)
    · rintro (_ | ⟨first, rest⟩)
      rw [first, ih.mpr rest]
      rfl

theorem exists_of_mapM {α β : Type} {f : α → Option β} {as : List α} {bs : List β} (h : as.mapM f = some bs) {b : β}
    (inside : b ∈ bs) : ∃ a ∈ as, f a = some b := by
  have all := mapM_eq_some_iff.mp h
  clear h
  induction all with
  | nil => cases inside
  | cons first _ ih =>
    rcases List.mem_cons.mp inside with rfl | later
    · exact ⟨_, List.mem_cons_self, first⟩
    · obtain ⟨a, there, same⟩ := ih later
      exact ⟨a, List.mem_cons_of_mem _ there, same⟩

theorem encode_ne {raw : List Bytes} {names : List JsString} (decoded : raw.mapM decodePortablePathBytes = some names)
    {component : JsString} (inside : component ∈ names) {other : Bytes} (apart : component ≠ decodeUtf8 other) :
    encodeUtf8 component ≠ other := by
  rintro rfl
  obtain ⟨bytes, -, read⟩ := exists_of_mapM decoded inside
  obtain ⟨value, kept⟩ := decodePortablePathBytes_eq_some.mp read
  rw [kept] at apart
  exact apart value.symm

theorem resolvePending_sound {follow : List JsString → List JsString → Option (List JsString)}
    (followed : ∀ current pending last, follow current pending = some last → DirectoryAt root current →
      Resolves root.objects (current.map encodeUtf8) (pending.map encodeUtf8) (last.map encodeUtf8))
    {current : List JsString} {currentIsDirectory : Bool} {pending last : List JsString}
    (directory : currentIsDirectory = true → DirectoryAt root current)
    (h : resolvePending unicode root follow current currentIsDirectory pending = some last) :
    Resolves root.objects (current.map encodeUtf8) (pending.map encodeUtf8) (last.map encodeUtf8) := by
  induction pending generalizing current currentIsDirectory with
  | nil =>
    obtain rfl := Option.some.inj h
    exact .done
  | cons component pending ih =>
    unfold resolvePending at h
    split at h
    · rename_i here
      obtain ⟨_, isDirectory, h⟩ := Option.bind_eq_some_iff.mp h
      obtain ⟨mode, entries, found⟩ := directory (ProviderState.ensure_eq_some_iff.mp isDirectory)
      refine .here ?_ (objects_directory found) (ih directory h)
      rcases here with rfl | rfl
      · exact .inl rfl
      · exact .inr rfl
    · rename_i elsewhere
      split at h
      · rename_i dots
        subst dots
        obtain ⟨_, isDirectory, h⟩ := Option.bind_eq_some_iff.mp h
        obtain ⟨mode, entries, found⟩ := directory (ProviderState.ensure_eq_some_iff.mp isDirectory)
        cases current with
        | nil => cases h
        | cons name parent =>
          refine .parent (objects_directory found) (ih (fun _ => ?_) h)
          obtain ⟨mode, entries, above, -⟩ := directory_of_entry found
          exact ⟨mode, entries, above⟩
      · rename_i dots
        obtain ⟨_, isDirectory, h⟩ := Option.bind_eq_some_iff.mp h
        obtain ⟨mode, entries, found⟩ := directory (ProviderState.ensure_eq_some_iff.mp isDirectory)
        rw [Node.lstat, found] at h
        dsimp only at h
        obtain ⟨names, read, h⟩ := Option.bind_eq_some_iff.mp h
        have readAll := (readPortableDirectory_eq_some.mp read).1
        obtain ⟨_, inside, h⟩ := Option.bind_eq_some_iff.mp h
        have inside := ProviderState.ensure_eq_some_iff.mp inside
        have nonempty : encodeUtf8 component ≠ [] :=
          encode_ne readAll inside fun same => elsewhere (.inl same)
        have dot : encodeUtf8 component ≠ [46] :=
          encode_ne readAll inside fun same => elsewhere (.inr same)
        have dotDot : encodeUtf8 component ≠ [46, 46] := encode_ne readAll inside dots
        have entry (node : Node) (there : entries.toList.lookup (encodeUtf8 component) = some node) :
            root.at? (encodeUtf8 component :: current.map encodeUtf8) = some node := by
          rw [Node.at?, found]
          exact there
        split at h
        · cases h
        · rename_i nlink bytes there
          obtain ⟨target, readTarget, h⟩ := Option.bind_eq_some_iff.mp h
          obtain ⟨_, relative, h⟩ := Option.bind_eq_some_iff.mp h
          have relative := ProviderState.ensure_eq_some_iff.mp relative
          refine .link nonempty dot dotDot ?_ (head?_ne_slash readTarget relative) ?_
          · rw [Node.objects, entry _ there]
            rfl
          · have rest := followed _ _ _ h ⟨mode, entries, found⟩
            rw [List.map_append, pathComponents, ← splitOn_encodeUtf8, (readPortableSymlink_eq_some readTarget).2] at rest
            exact rest
        · rename_i node plain there
          have child := entry node there
          have object : root.objects (encodeUtf8 component :: current.map encodeUtf8) = some node.object := by
            rw [Node.objects, child]
            rfl
          refine .entry nonempty dot dotDot object ?_ (ih (fun isDirectory => ?_) h)
          · intro target same
            cases node with
            | symlink nlink bytes => exact plain nlink bytes rfl
            | directory mode entries => cases same
            | file mode nlink bytes => cases same
            | special => cases same
          · cases node with
            | directory mode entries => exact ⟨mode, entries, child⟩
            | file mode nlink bytes => cases isDirectory
            | symlink nlink bytes => cases isDirectory
            | special => cases isDirectory

theorem resolveLinks_sound {links : Nat} {current pending last : List JsString} (directory : DirectoryAt root current)
    (h : resolveLinks unicode root links current pending = some last) :
    Resolves root.objects (current.map encodeUtf8) (pending.map encodeUtf8) (last.map encodeUtf8) := by
  induction links generalizing current pending last with
  | zero => exact resolvePending_sound (fun _ _ _ never => by cases never) (fun _ => directory) h
  | succ links ih =>
    exact resolvePending_sound (fun _ _ _ followed directory => ih directory followed) (fun _ => directory) h

/-- A relative link whose resolution succeeds is resolved by the file system, to the same place. -/
theorem resolveSymlinkTarget_sound {start last : List JsString} {bytes : Bytes} {target : JsString}
    (directory : DirectoryAt root start) (read : readPortableSymlink bytes = some target)
    (h : resolveSymlinkTarget unicode root start target = some last) :
    Resolves root.objects (start.map encodeUtf8) (bytes.splitOn 47) (last.map encodeUtf8) := by
  have resolved := resolveLinks_sound directory h
  rwa [pathComponents, ← splitOn_encodeUtf8, (readPortableSymlink_eq_some read).2] at resolved

end Walk

end PortableCodex.StoppedTree
