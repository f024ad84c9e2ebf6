import PortableCodex.StoppedTree.CopyLaws
import PortableCodex.SymlinkWalk.WalkLaws

/-!
What an accepted absolute link does not reach.

The identities that are collected from a tree are those of all of its objects. So every place that the walk of
an accepted link enters is apart from the source, from the authorities and from the destination, but for the
root, where it begins (`symlinkResolution`).
-/

namespace PortableCodex.SymlinkWalk

open Js StoppedTree
open ProviderState (ensure)

/-! ### Identities -/

section Identities

variable {unicode : Unicode} {expectedDevice : Option Nat} {fs : FileSystem}

theorem Items.collect_lookup : ∀ {entries : Items} {identities : List Identity} {name : Bytes} {item : Item},
    entries.collectTreeIdentities unicode expectedDevice = some identities → entries.lookup name = some item →
      ∃ inner, item.collectTreeIdentities unicode expectedDevice = some inner ∧ inner ⊆ identities
  | .nil, _, _, _, _, found => by cases found
  | .cons other first rest, identities, name, item, collected, found => by
    unfold Items.collectTreeIdentities at collected
    obtain ⟨inner, here, collected⟩ := Option.bind_eq_some_iff.mp collected
    obtain ⟨others, later, same⟩ := Option.bind_eq_some_iff.mp collected
    obtain rfl := Option.some.inj same
    unfold Items.lookup at found
    split at found
    · obtain rfl := Option.some.inj found
      exact ⟨inner, here, List.subset_append_left _ _⟩
    · obtain ⟨inner', there, inside⟩ := Items.collect_lookup later found
      exact ⟨inner', there, List.Subset.trans inside (List.subset_append_right _ _)⟩

theorem Item.collect_entries {item : Item} {entries : Items} {identities : List Identity}
    (collected : item.collectTreeIdentities unicode expectedDevice = some identities)
    (listed : item.entries? = some entries) :
    ∃ inner, entries.collectTreeIdentities unicode expectedDevice = some inner ∧ inner ⊆ identities := by
  cases item with
  | directory identity entries' =>
    obtain rfl := Option.some.inj listed
    unfold Item.collectTreeIdentities at collected
    obtain ⟨_, -, collected⟩ := Option.bind_eq_some_iff.mp collected
    obtain ⟨_, -, collected⟩ := Option.bind_eq_some_iff.mp collected
    obtain ⟨inner, there, same⟩ := Option.bind_eq_some_iff.mp collected
    obtain rfl := Option.some.inj same
    exact ⟨inner, there, List.subset_cons_self _ _⟩
  | symlink identity target => cases listed
  | other identity => cases listed

theorem Item.collect_identity {item : Item} {identities : List Identity}
    (collected : item.collectTreeIdentities unicode expectedDevice = some identities) :
    item.identity ∈ identities := by
  unfold Item.collectTreeIdentities at collected
  cases item with
  | directory identity entries =>
    obtain ⟨_, -, collected⟩ := Option.bind_eq_some_iff.mp collected
    obtain ⟨_, -, collected⟩ := Option.bind_eq_some_iff.mp collected
    obtain ⟨inner, -, same⟩ := Option.bind_eq_some_iff.mp collected
    obtain rfl := Option.some.inj same
    exact List.mem_cons_self
  | symlink identity target =>
    obtain ⟨_, -, same⟩ := Option.bind_eq_some_iff.mp collected
    obtain rfl := Option.some.inj same
    exact List.mem_cons_self
  | other identity =>
    obtain ⟨_, -, same⟩ := Option.bind_eq_some_iff.mp collected
    obtain rfl := Option.some.inj same
    exact List.mem_cons_self

/-- What is collected from a tree includes what is collected from the objects below. -/
theorem Item.collect_at? {root item : Item} {identities : List Identity} {below : Place}
    (collected : root.collectTreeIdentities unicode expectedDevice = some identities)
    (found : root.at? below = some item) :
    ∃ inner, item.collectTreeIdentities unicode expectedDevice = some inner ∧ inner ⊆ identities := by
  induction below generalizing item with
  | nil =>
    obtain rfl := Option.some.inj found
    exact ⟨identities, collected, List.Subset.refl _⟩
  | cons name below ih =>
    obtain ⟨directory, above, inside⟩ := Option.bind_eq_some_iff.mp found
    obtain ⟨entries, listed, inside⟩ := Option.bind_eq_some_iff.mp inside
    obtain ⟨outer, there, included⟩ := ih above
    obtain ⟨middle, there, included'⟩ := Item.collect_entries there listed
    obtain ⟨inner, there, included''⟩ := Items.collect_lookup there inside
    exact ⟨inner, there, List.Subset.trans included'' (List.Subset.trans included' included)⟩

theorem at?_append (root item : Item) (below place : Place) (found : root.at? place = some item) :
    root.at? (below ++ place) = item.at? below := by
  induction below with
  | nil => exact found
  | cons name below ih =>
    rw [List.cons_append]
    unfold Item.at?
    rw [ih]

/-- The identities of all objects at and below a place are collected there. -/
theorem collected_below {tree item : Item} {identities : List Identity} {place below : Place}
    (there : fs.lstat place = some tree)
    (collected : tree.collectTreeIdentities unicode expectedDevice = some identities)
    (found : fs.lstat (below ++ place) = some item) : item.identity ∈ identities := by
  have inside : tree.at? below = some item := by
    rw [← at?_append fs.root tree below place there]
    exact found
  obtain ⟨inner, collected, included⟩ := Item.collect_at? collected inside
  exact included (Item.collect_identity collected)

theorem forbidden_below {authorities : List Authority} {identities : List Identity}
    (collected : collectForbiddenAuthorityIdentityKeys unicode fs authorities = some identities)
    {authority : Authority} (inside : authority ∈ authorities) {below : Place} {item : Item}
    (found : fs.lstat (below ++ authority.path) = some item) : item.identity ∈ identities := by
  induction authorities generalizing identities with
  | nil => cases inside
  | cons first authorities ih =>
    unfold collectForbiddenAuthorityIdentityKeys at collected
    obtain ⟨tree, there, collected⟩ := Option.bind_eq_some_iff.mp collected
    obtain ⟨_, -, collected⟩ := Option.bind_eq_some_iff.mp collected
    obtain ⟨inner, here, collected⟩ := Option.bind_eq_some_iff.mp collected
    obtain ⟨others, later, same⟩ := Option.bind_eq_some_iff.mp collected
    obtain rfl := Option.some.inj same
    rcases List.mem_cons.mp inside with rfl | inside
    · exact List.mem_append_left _ (collected_below there here found)
    · exact List.mem_append_right _ (ih later inside)

end Identities

/-! ### Absolute links -/

/-- Neither in a tree, nor one of its objects at another place. -/
def Apart (fs : FileSystem) (tree place : Place) (item : Item) : Prop :=
  ¬ tree <:+ place ∧ ∀ below other, fs.lstat (below ++ tree) = some other → item.identity ≠ other.identity

section Absolute

variable {unicode : Unicode} {fs : FileSystem} {context : Context unicode fs}

/-- An object that an absolute link may reach. -/
structure Allowed (context : Context unicode fs) (place : Place) (item : Item) : Prop where
  source : Apart fs context.sourceRoot place item
  forbidden : ∀ authority ∈ context.forbiddenAbsoluteSymlinkAuthorities, Apart fs authority.path place item
  destination : item.identity ≠ context.destinationRootIdentity

/-- Whatever its caller checks, the walk ends only where the file system does, and its caller has checked
every place that it enters. -/
def WalkSound (unicode : Unicode) (fs : FileSystem) : Prop :=
  ∀ checks start target last, fs.IsDirectory start →
    resolveSymlinkTargetWithoutHiddenTraversal unicode fs checks start target = some last →
    ∃ links entered, links + 1 ≤ maxSymlinkResolutionDepth ∧
      Resolves fs links start (target.splitOn 47) last entered ∧
      (∀ others other entered', Resolves fs others start (target.splitOn 47) other entered' →
        others = links ∧ other = last ∧ entered' = entered) ∧
      ∀ passed ∈ entered, checks.validateCandidate passed = true

/-- What an accepted absolute link passes, from the root on, is allowed. -/
def LinksSafe (context : Context unicode fs) : Prop :=
  ∀ rest, context.assertPortableSymlink rest = some () →
    ∃ links last entered, Resolves fs links [] (rest.splitOn 47) last entered ∧
      ∀ passed ∈ [] :: entered, ∃ item, fs.lstat passed = some item ∧ Allowed context passed item

theorem resolve_sound {checks : Checks} {start last : Place} {target : Bytes} (directory : fs.IsDirectory start)
    (h : resolveSymlinkTargetWithoutHiddenTraversal unicode fs checks start target = some last) :
    Walked fs checks (maxSymlinkResolutionDepth - 1) start (target.splitOn 47) last := walkLinks_sound directory h

theorem walkSound (unicode : Unicode) (fs : FileSystem) : WalkSound unicode fs := by
  intro checks start target last directory h
  obtain ⟨links, entered, bound, resolved, validated, -⟩ := resolve_sound directory h
  refine ⟨links, entered, Nat.succ_le_succ bound, resolved, ?_, validated⟩
  intro others other entered' again
  exact again.unique resolved

theorem allowed_of_checks {place : Place} {item : Item}
    (candidate : context.absoluteChecks.validateCandidate place = true)
    (metadata : context.absoluteChecks.validateMetadata place item = true) : Allowed context place item := by
  obtain ⟨sources, -, authorities⟩ := of_decide_eq_true candidate
  obtain ⟨source, destination, forbidden⟩ := of_decide_eq_true metadata
  obtain ⟨source, -⟩ := not_or.mp source
  refine ⟨⟨?_, ?_⟩, ?_, destination⟩
  · intro inside
    exact sources ⟨context.sourceRoot, List.mem_cons_of_mem _ List.mem_cons_self, inside⟩
  · intro below other found same
    rw [same] at source
    exact source (collected_below context.found context.collected found)
  · intro authority listed
    constructor
    · intro inside
      exact authorities ⟨authority, listed, inside⟩
    · intro below other found same
      rw [same] at forbidden
      exact forbidden (forbidden_below context.forbidden listed found)

theorem assertPortableSymlink_eq_some {rest : Bytes} (h : context.assertPortableSymlink rest = some ()) :
    context.allowAbsoluteSymlinks = true ∧
      ∃ last, resolveSymlinkTargetWithoutHiddenTraversal unicode fs context.absoluteChecks [] rest = some last := by
  obtain ⟨_, allowed, h⟩ := Option.bind_eq_some_iff.mp h
  obtain ⟨last, resolved, -⟩ := Option.bind_eq_some_iff.mp h
  exact ⟨ProviderState.ensure_eq_some_iff.mp allowed, last, resolved⟩

/-- The link to the root is accepted, and nothing is checked. -/
theorem assertPortableSymlink_root (allowed : context.allowAbsoluteSymlinks = true) :
    context.assertPortableSymlink [] = some () := by
  unfold Context.assertPortableSymlink
  rw [ProviderState.ensure_pos allowed]
  rfl

theorem LinksSafe.root (h : LinksSafe context) (allowed : context.allowAbsoluteSymlinks = true) :
    Allowed context [] fs.root := by
  obtain ⟨links, last, entered, -, safe⟩ := h [] (assertPortableSymlink_root allowed)
  obtain ⟨item, found, safe⟩ := safe [] List.mem_cons_self
  obtain rfl := Option.some.inj found
  exact safe

theorem linksSafe_of_root (root : context.allowAbsoluteSymlinks = true → Allowed context [] fs.root) :
    LinksSafe context := by
  intro rest accepted
  obtain ⟨allowed, last, resolved⟩ := assertPortableSymlink_eq_some accepted
  obtain ⟨links, entered, -, resolved, validated, inspects⟩ := resolve_sound (isDirectory_root fs) resolved
  refine ⟨links, last, entered, resolved, ?_⟩
  intro passed inside
  by_cases top : passed = []
  · subst top
    exact ⟨fs.root, rfl, root allowed⟩
  · have inside := (List.mem_cons.mp inside).resolve_left top
    -- the walk came down to the place from the root
    obtain ⟨item, found, metadata⟩ := inspects inspected_root passed inside passed (List.suffix_refl _) top
    exact ⟨item, found, allowed_of_checks (validated passed inside) metadata⟩

end Absolute

/-- The walk is sound; the links that it accepts are safe exactly when the root may be reached. -/
theorem symlinkResolution (unicode : Unicode) (fs : FileSystem) (context : Context unicode fs) :
    WalkSound unicode fs ∧ LinksSafe context ↔
      (context.allowAbsoluteSymlinks = true → Allowed context [] fs.root) := by
  constructor
  · rintro ⟨-, safe⟩ allowed
    exact safe.root allowed
  · intro root
    exact ⟨walkSound unicode fs, linksSafe_of_root root⟩

/-! ### An authority that shows the root -/

def auth : Bytes := [97, 117, 116, 104]

def data : Bytes := [100, 97, 116, 97]

def dst : Bytes := [100, 115, 116]

def link : Bytes := [108, 105, 110, 107]

def src : Bytes := [115, 114, 99]

def sourceItem : Item := .directory ⟨5, 2⟩ (.cons link (.symlink ⟨5, 3⟩ [47]) .nil)

/-- The root, shown again at `/auth` without what is mounted below. -/
def authItem : Item :=
  .directory ⟨1, 2⟩ (.cons auth (.directory ⟨1, 11⟩ .nil) (.cons data (.directory ⟨1, 10⟩ .nil) .nil))

def mountedRoot : FileSystem where
  root := .directory ⟨1, 2⟩ (.cons auth authItem (.cons data
    (.directory ⟨5, 1⟩ (.cons src sourceItem (.cons dst (.directory ⟨5, 4⟩ .nil) .nil))) .nil))
  directory := rfl

theorem sourceItem_found : mountedRoot.lstat [src, data] = some sourceItem := rfl

theorem authItem_found : mountedRoot.lstat [auth] = some authItem := rfl

theorem sourceItem_collected : sourceItem.collectTreeIdentities asciiUnicode none = some [⟨5, 2⟩, ⟨5, 3⟩] := by
  decide +kernel

theorem authItem_collected : collectForbiddenAuthorityIdentityKeys asciiUnicode mountedRoot
    [⟨[auth], ⟨1, 2⟩⟩] = some [⟨1, 2⟩, ⟨1, 11⟩, ⟨1, 10⟩] := by decide +kernel

/-- A copy of `/data/src` to `/data/dst`; no link is to reach what is at `/auth`. -/
def mountedContext : Context asciiUnicode mountedRoot where
  allowAbsoluteSymlinks := true
  sourceRoot := [src, data]
  lexicalSourceRoot := [src, data]
  destinationRoots := [[dst, data], [dst, data]]
  destinationRootIdentity := ⟨5, 4⟩
  forbiddenAbsoluteSymlinkAuthorities := [⟨[auth], ⟨1, 2⟩⟩]
  source := sourceItem
  sourceIdentityKeys := [⟨5, 2⟩, ⟨5, 3⟩]
  forbiddenAbsoluteSymlinkIdentityKeys := [⟨1, 2⟩, ⟨1, 11⟩, ⟨1, 10⟩]
  found := sourceItem_found
  collected := sourceItem_collected
  forbidden := authItem_collected

/-- A link to `/` reaches the object of the authority. -/
theorem root_unchecked : ¬ ∀ unicode fs (context : Context unicode fs), WalkSound unicode fs ∧ LinksSafe context := by
  intro always
  have root := (always asciiUnicode mountedRoot mountedContext).2.root rfl
  have apart := root.forbidden ⟨[auth], ⟨1, 2⟩⟩ List.mem_cons_self
  exact apart.2 [] authItem authItem_found rfl

end PortableCodex.SymlinkWalk
