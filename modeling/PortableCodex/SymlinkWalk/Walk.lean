import PortableCodex.StoppedTree.Tree

/-!
The walk along the links of a stopped tree.

`StoppedTree` resolves a relative link inside of its tree. Here the walk is the one of the source for either
kind of target, over a whole file system, with the checks of its caller as parameters; the absolute branch of
`assertPortableSymlink` is the caller. The file system is quiescent, so an object is still the one that was
seen before. Of its mounts only the objects at their places are there, so one identity may be at several
places; the checks of mount points are left out. A text is kept as the bytes that it encodes to, and a name
that is no text is refused where the source decodes it.
-/

namespace PortableCodex.SymlinkWalk

open Js StoppedTree
open ProviderState (ensure)

/-! ### File systems -/

/-- What `fileIdentityKey` is about. -/
structure Identity where
  dev : Nat
  ino : Nat
deriving DecidableEq

mutual

/-- An object of a file system. -/
inductive Item where
  | directory (identity : Identity) (entries : Items)
  | symlink (identity : Identity) (target : Bytes)
  | other (identity : Identity)

/-- The entries of a directory, in the order in which it lists them. -/
inductive Items where
  | nil
  | cons (name : Bytes) (item : Item) (rest : Items)

end

/-- The names from the root, the innermost first. -/
abbrev Place := List Bytes

def Items.lookup (name : Bytes) : Items → Option Item
  | .nil => none
  | .cons other item rest => if name = other then some item else rest.lookup name

def Items.names : Items → List Bytes
  | .nil => []
  | .cons name _ rest => name :: rest.names

def Item.identity : Item → Identity
  | .directory identity _ | .symlink identity _ | .other identity => identity

def Item.entries? : Item → Option Items
  | .directory _ entries => some entries
  | _ => none

def Item.isDirectory (item : Item) : Bool := item.entries?.isSome

/-- The object at a place below an object; links are not followed. -/
def Item.at? (root : Item) : Place → Option Item
  | [] => some root
  | name :: parent => (root.at? parent).bind fun directory => directory.entries?.bind (·.lookup name)

/-- A file system is its root directory. -/
structure FileSystem where
  root : Item
  directory : root.isDirectory = true

def FileSystem.lstat (fs : FileSystem) (place : Place) : Option Item := fs.root.at? place

def FileSystem.IsDirectory (fs : FileSystem) (place : Place) : Prop :=
  ∃ item, fs.lstat place = some item ∧ item.isDirectory = true

/-- `readPortableDirectory`, without the sort. -/
def readPortableNames (unicode : Unicode) (entries : Items) : Option (List Bytes) := do
  let names ← entries.names.mapM decodePortablePathBytes
  assertPortableDirectoryNames unicode names
  some entries.names

/-! ### Identities -/

section Identities

variable (unicode : Unicode) (expectedDevice : Option Nat)

mutual

def Item.collectTreeIdentities : Item → Option (List Identity)
  | .directory identity entries => do
      ensure (∀ device ∈ expectedDevice, identity.dev = device)
      let _ ← readPortableNames unicode entries
      let identities ← entries.collectTreeIdentities
      some (identity :: identities)
  | .symlink identity _ | .other identity => do
      ensure (∀ device ∈ expectedDevice, identity.dev = device)
      some [identity]

def Items.collectTreeIdentities : Items → Option (List Identity)
  | .nil => some []
  | .cons _ item rest => do
      let identities ← item.collectTreeIdentities
      let others ← rest.collectTreeIdentities
      some (identities ++ others)

end

end Identities

/-- A directory whose objects an absolute link is not to reach. -/
structure Authority where
  path : Place
  identity : Identity

def collectForbiddenAuthorityIdentityKeys (unicode : Unicode) (fs : FileSystem) :
    List Authority → Option (List Identity)
  | [] => some []
  | authority :: authorities => do
      let item ← fs.lstat authority.path
      ensure (item.isDirectory = true ∧ item.identity = authority.identity)
      let identities ← item.collectTreeIdentities unicode (some authority.identity.dev)
      let others ← collectForbiddenAuthorityIdentityKeys unicode fs authorities
      some (identities ++ others)

/-! ### The walk -/

/-- The parameters of `resolveSymlinkTargetWithoutHiddenTraversal`. A check that is false throws. -/
structure Checks where
  exactPortableNames : Bool
  validateCandidate : Place → Bool
  validateMetadata : Place → Item → Bool

section Walk

variable (unicode : Unicode) (fs : FileSystem) (checks : Checks)

def assertExactName (current : Place) (component : Bytes) : Option Unit :=
  if checks.exactPortableNames then do
    let directory ← fs.lstat current
    let entries ← directory.entries?
    let names ← readPortableNames unicode entries
    ensure (component ∈ names)
  else some ()

/-- The loop up to the next link. `follow` goes on behind the target of a link. -/
def walkPending (follow : Place → List Bytes → Option Place) : Place → Bool → List Bytes → Option Place
  | current, _, [] => some current
  | current, currentIsDirectory, component :: pending =>
      if component = [] ∨ component = [46] then do
        ensure (currentIsDirectory = true)
        walkPending follow current currentIsDirectory pending
      else if component = [46, 46] then do
        ensure (currentIsDirectory = true)
        -- `dirname` of the root is the root
        ensure (checks.validateCandidate current.tail = true)
        walkPending follow current.tail currentIsDirectory pending
      else do
        ensure (currentIsDirectory = true)
        assertExactName unicode fs checks current component
        ensure (checks.validateCandidate (component :: current) = true)
        let item ← fs.lstat (component :: current)
        ensure (checks.validateMetadata (component :: current) item = true)
        match item with
        | .symlink _ nestedTarget => do
            ensure (encodeUtf8 (decodeUtf8 nestedTarget) = nestedTarget)
            match nestedTarget with
            | 47 :: rest => do
                ensure (checks.validateCandidate [] = true)
                follow [] (rest.splitOn 47 ++ pending)
            | _ => follow current (nestedTarget.splitOn 47 ++ pending)
        | item => walkPending follow (component :: current) item.isDirectory pending

/-- The walk that may follow this many more links. -/
def walkLinks : Nat → Place → List Bytes → Option Place
  | 0, current, pending => walkPending unicode fs checks (fun _ _ => none) current true pending
  | links + 1, current, pending => walkPending unicode fs checks (walkLinks links) current true pending

/-- The link whose target it is counts as the first one. -/
def resolveSymlinkTargetWithoutHiddenTraversal (start : Place) (target : Bytes) : Option Place :=
  walkLinks unicode fs checks (maxSymlinkResolutionDepth - 1) start (target.splitOn 47)

end Walk

/-! ### Absolute links -/

/-- What a copy knows before it looks at a link. -/
structure Context (unicode : Unicode) (fs : FileSystem) where
  allowAbsoluteSymlinks : Bool
  /-- `canonicalSourceRoot`, and the lexical path of the source -/
  sourceRoot : Place
  lexicalSourceRoot : Place
  destinationRoots : List Place
  destinationRootIdentity : Identity
  forbiddenAbsoluteSymlinkAuthorities : List Authority
  source : Item
  sourceIdentityKeys : List Identity
  forbiddenAbsoluteSymlinkIdentityKeys : List Identity
  found : fs.lstat sourceRoot = some source
  collected : source.collectTreeIdentities unicode none = some sourceIdentityKeys
  forbidden : collectForbiddenAuthorityIdentityKeys unicode fs forbiddenAbsoluteSymlinkAuthorities =
    some forbiddenAbsoluteSymlinkIdentityKeys

section Absolute

variable {unicode : Unicode} {fs : FileSystem} (context : Context unicode fs)

def Context.sourceRoots : List Place := [context.lexicalSourceRoot, context.sourceRoot]

/-- The checks of an absolute link; `pathIsInside` is about the names from the root. -/
def Context.absoluteChecks : Checks where
  exactPortableNames := false
  validateCandidate candidate :=
    ¬ (∃ root ∈ context.sourceRoots, root <:+ candidate) ∧
      ¬ (∃ root ∈ context.destinationRoots, root <:+ candidate) ∧
      ¬ (∃ authority ∈ context.forbiddenAbsoluteSymlinkAuthorities, authority.path <:+ candidate)
  validateMetadata _ item :=
    ¬ (item.identity ∈ context.sourceIdentityKeys ∨ item.identity = context.source.identity) ∧
      item.identity ≠ context.destinationRootIdentity ∧
      item.identity ∉ context.forbiddenAbsoluteSymlinkIdentityKeys

/-- `assertPortableSymlink` of an absolute target, without its slash. -/
def Context.assertPortableSymlink (rest : Bytes) : Option Unit := do
  ensure (context.allowAbsoluteSymlinks = true)
  let _ ← resolveSymlinkTargetWithoutHiddenTraversal unicode fs context.absoluteChecks [] rest
  some ()

end Absolute

end PortableCodex.SymlinkWalk
