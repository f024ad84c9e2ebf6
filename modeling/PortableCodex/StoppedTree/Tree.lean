import PortableCodex.Js.Path
import PortableCodex.ProviderState.CanonicalLaws

/-!
Copying and digesting a stopped tree.

The tree is quiescent: nothing but the copy changes a file system, so the checks that an object is still the
one that was seen before hold and are left out, and there are no mounts. The scan of identities before the
copy reads the directories that the copy reads, with the same checks, and is left out with them. What is left
are the objects of the source tree and the copy of each. Handles, owners and access lists are left out too;
`checkAccess` says what the snapshot user can read. An absolute link leaves the tree, and what becomes of it
outside is up to the context. A failed call throws; what it leaves at the destination is not looked at.
-/

namespace PortableCodex.StoppedTree

open Js
open ProviderState (ensure)

/-! ### Trees -/

mutual

/-- An object of a file system, with the number of its links where that matters. -/
inductive Node where
  | directory (mode : Nat) (entries : Entries)
  | file (mode nlink : Nat) (bytes : Bytes)
  | symlink (nlink : Nat) (target : Bytes)
  /-- A socket, a device or a FIFO. -/
  | special

/-- The entries of a directory, in the order in which it lists them. -/
inductive Entries where
  | nil
  | cons (name : Bytes) (node : Node) (rest : Entries)

end

def Entries.toList : Entries → List (Bytes × Node)
  | .nil => []
  | .cons name node rest => (name, node) :: rest.toList

def Entries.ofList : List (Bytes × Node) → Entries
  | [] => .nil
  | (name, node) :: rest => .cons name node (.ofList rest)

def Node.child? (name : Bytes) : Node → Option Node
  | .directory _ entries => entries.toList.lookup name
  | _ => none

def Node.isDirectory : Node → Bool
  | .directory _ _ => true
  | _ => false

/-- The object at a path from the root, the innermost name first; links are not followed. -/
def Node.at? (root : Node) : List Bytes → Option Node
  | [] => some root
  | name :: parent => (root.at? parent).bind (·.child? name)

/-- `lstat` of a path of texts. -/
def Node.lstat (root : Node) (path : List JsString) : Option Node := root.at? (path.map encodeUtf8)

/-! ### Names and links -/

/-- What the language knows of Unicode. -/
structure Unicode where
  normalizeNFC : JsString → JsString
  toLowerCase : JsString → JsString
  toUpperCase : JsString → JsString

/-- The iteration of a string. -/
def characters : JsString → List JsString
  | [] => []
  | [u] => [[u]]
  | u :: v :: rest =>
      if isHighSurrogate u && isLowSurrogate v then [u, v] :: characters rest
      else [u] :: characters (v :: rest)

/-- `codePointAt(0) > 0x7f` of a character -/
def isNonAscii (character : JsString) : Bool := ¬ character.all (·.toNat ≤ 0x7F)

def decodePortablePathBytes (bytes : Bytes) : Option JsString := do
  let value := decodeUtf8 bytes
  ensure (encodeUtf8 value = bytes)
  some value

/-- The checks of one name that do not depend on the others. -/
def PortableName (unicode : Unicode) (entry : JsString) : Prop :=
  entry = unicode.normalizeNFC entry ∧
    ∀ value ∈ [entry, unicode.normalizeNFC entry], ∀ character ∈ characters value,
      ¬ (isNonAscii character = true ∧
        (unicode.toLowerCase character ≠ character ∨ unicode.toUpperCase character ≠ character))

instance (unicode : Unicode) (entry : JsString) : Decidable (PortableName unicode entry) :=
  inferInstanceAs (Decidable (_ ∧ _))

def portableKey (unicode : Unicode) (entry : JsString) : JsString :=
  unicode.toLowerCase (unicode.normalizeNFC entry)

/-- The loop of `assertPortableDirectoryNames`, with the keys so far. -/
def assertPortableName (unicode : Unicode) (portableKeys : List JsString) (entry : JsString) :
    Option (List JsString) := do
  ensure (PortableName unicode entry)
  ensure (portableKey unicode entry ∉ portableKeys)
  some (portableKey unicode entry :: portableKeys)

/-- `assertPortableDirectoryNames`, without the sort. -/
def assertPortableDirectoryNames (unicode : Unicode) (entries : List JsString) : Option Unit := do
  let _ ← entries.foldlM (assertPortableName unicode) []
  some ()

/-- `readPortableDirectory`, without the sort. -/
def readPortableDirectory (unicode : Unicode) (entries : Entries) : Option (List JsString) := do
  let names ← (entries.toList.map Prod.fst).mapM decodePortablePathBytes
  assertPortableDirectoryNames unicode names
  some names

def readPortableSymlink (bytes : Bytes) : Option JsString := do
  let target := decodeUtf8 bytes
  ensure (encodeUtf8 target = bytes)
  some target

def pathComponents (path : JsString) : List JsString := path.splitOn 47

/-- `MAX_SYMLINK_RESOLUTION_DEPTH` -/
def maxSymlinkResolutionDepth : Nat := 32

section Resolution

variable (unicode : Unicode) (source : Node)

/-- The loop of `resolveSymlinkTargetWithoutHiddenTraversal` up to the next link, for a relative target; the
candidates stay inside of the source tree. `follow` goes on behind the target of a link. -/
def resolvePending (follow : List JsString → List JsString → Option (List JsString)) :
    List JsString → Bool → List JsString → Option (List JsString)
  | current, _, [] => some current
  | current, currentIsDirectory, component :: pending =>
      if component = [] ∨ component = js "." then do
        ensure (currentIsDirectory = true)
        resolvePending follow current currentIsDirectory pending
      else if component = js ".." then do
        ensure (currentIsDirectory = true)
        match current with
        | [] => none
        | _ :: parent => resolvePending follow parent currentIsDirectory pending
      else do
        ensure (currentIsDirectory = true)
        match source.lstat current with
        | some (.directory _ entries) =>
            let names ← readPortableDirectory unicode entries
            ensure (component ∈ names)
            match entries.toList.lookup (encodeUtf8 component) with
            | none => none
            | some (.symlink _ bytes) =>
                let nestedTarget ← readPortableSymlink bytes
                -- the root is outside of the source tree
                ensure (¬ isAbsolute nestedTarget)
                follow current (pathComponents nestedTarget ++ pending)
            | some node => resolvePending follow (component :: current) node.isDirectory pending
        | _ => none

/-- The resolution that may follow this many more links. -/
def resolveLinks : Nat → List JsString → List JsString → Option (List JsString)
  | 0, current, pending => resolvePending unicode source (fun _ _ => none) current true pending
  | links + 1, current, pending => resolvePending unicode source (resolveLinks links) current true pending

/-- `resolveSymlinkTargetWithoutHiddenTraversal` of a relative target. The link itself is the first one. -/
def resolveSymlinkTarget (start : List JsString) (target : JsString) : Option (List JsString) :=
  resolveLinks unicode source (maxSymlinkResolutionDepth - 1) start (pathComponents target)

end Resolution

/-! ### Copying -/

structure Context where
  unicode : Unicode
  checkAccess : List JsString → Bool
  /-- The names of the lexical roots, the innermost first. -/
  sourceRoot : List JsString
  destinationRoot : List JsString
  /-- An absolute target is allowed, and its walk outside of the tree succeeds. -/
  absoluteAccepted : JsString → Bool

/-- `relative(root, candidate)` where the candidate is inside of the root. -/
def relativeInside (root candidate : List JsString) : Option (List JsString) := do
  ensure (root <:+ candidate)
  some (candidate.take (candidate.length - root.length))

/-- `resolve(directory, target)` of a relative target. -/
def resolveLexically (directory : List JsString) (target : JsString) : List JsString :=
  (pathComponents target).foldl resolveSegment directory

def assertPortableSymlink (context : Context) (source : Node) (directory : List JsString) (target : JsString) :
    Option Unit :=
  if isAbsolute target then ensure (context.absoluteAccepted target = true)
  else do
    let sourceTarget ← relativeInside context.sourceRoot
      (resolveLexically (directory ++ context.sourceRoot) target)
    let destinationTarget ← relativeInside context.destinationRoot
      (resolveLexically (directory ++ context.destinationRoot) target)
    ensure (sourceTarget = destinationTarget)
    let _ ← resolveSymlinkTarget context.unicode source directory target
    some ()

def portableMode (mode : Nat) : Option Nat := do
  ensure (mode &&& 0o7000 = 0)
  some (mode &&& 0o777)

/-- `pwrite` -/
def writeAt (file : Bytes) (position : Nat) (bytes : Bytes) : Bytes :=
  file.take position ++ List.replicate (position - file.length) 0 ++ bytes ++ file.drop (position + bytes.length)

/-- The inner loop of `copyFileContents`, with what each write comes to. -/
def writeBuffer (buffer : Bytes) (position : Nat) : List Nat → Nat → Bytes → Option Bytes
  | [], written, destination => do
      ensure (¬ written < buffer.length)
      some destination
  | bytesWritten :: writes, written, destination => do
      ensure (written < buffer.length ∧ bytesWritten ≤ buffer.length - written)
      writeBuffer buffer position writes (written + bytesWritten)
        (writeAt destination (position + written) (subarray buffer written (written + bytesWritten)))

/-- `copyFileContents`, with what each read and each of its writes come to. A read comes to nothing only at
the end of the file. -/
def copyFileContents (source : Bytes) : List (Nat × List Nat) → Nat → Bytes → Option Bytes
  | [], position, destination => do
      ensure (source.length ≤ position)
      some destination
  | (bytesRead, writes) :: reads, position, destination => do
      ensure (0 < bytesRead ∧ bytesRead ≤ 1024 * 1024 ∧ position + bytesRead ≤ source.length)
      let destination ← writeBuffer (subarray source position (position + bytesRead)) position writes 0 destination
      copyFileContents source reads (position + bytesRead) destination

section Copying

variable (context : Context) (source : Node) (transfers : List JsString → List (Nat × List Nat))

mutual

/-- `copyTreeEntry`, of the object at a path of the source tree. -/
def copyTreeEntry (path : List JsString) : Node → Option Node
  | .symlink nlink bytes => do
      ensure (nlink = 1)
      let target ← readPortableSymlink bytes
      assertPortableSymlink context source path.tail target
      some (.symlink 1 (encodeUtf8 target))
  | .directory mode entries => do
      ensure (context.checkAccess path = true)
      let finalMode ← portableMode mode
      let _ ← readPortableDirectory context.unicode entries
      let copied ← copyEntries path entries
      some (.directory finalMode (.ofList ((sortByKey copied).map fun entry => (encodeUtf8 entry.1, entry.2))))
  | .file mode nlink bytes => do
      ensure (context.checkAccess path = true)
      ensure (nlink = 1)
      let finalMode ← portableMode mode
      let copied ← copyFileContents bytes (transfers path) 0 []
      some (.file finalMode 1 copied)
  | .special => none

/-- The entries of a directory; what is copied does not depend on their order. -/
def copyEntries (path : List JsString) : Entries → Option (List (JsString × Node))
  | .nil => some []
  | .cons name node rest => do
      let entry ← decodePortablePathBytes name
      let copied ← copyTreeEntry (entry :: path) node
      let others ← copyEntries path rest
      some ((entry, copied) :: others)

end

end Copying

/-- The two places of a copy. -/
structure Disk where
  source : Node
  destination : Option Node

def copyStoppedTreeBetweenRoots (context : Context) (transfers : List JsString → List (Nat × List Nat))
    (disk : Disk) : Option Disk := do
  ensure (disk.source.isDirectory = true)
  ensure (disk.destination.isNone = true)
  let copied ← copyTreeEntry context disk.source transfers [] disk.source
  some { disk with destination := some copied }

/-! ### Digests -/

def updateHashFields (fields : List Bytes) : Bytes :=
  fields.flatMap fun field => encodeUtf8 (decimal field.length ++ js ":") ++ field

/-- `relative(root, path) || "."` -/
def entryPath (path : List JsString) : JsString :=
  if path = [] then js "." else List.intercalate [47] path.reverse

section Digest

variable (unicode : Unicode) (checkAccess : List JsString → Bool)

mutual

/-- `hashTreeEntry`, with the fields that the hash is updated with. -/
def hashTreeEntry (path : List JsString) : Node → Option (List Bytes)
  | .symlink nlink bytes => do
      ensure (nlink = 1)
      let _ ← readPortableSymlink bytes
      some [encodeUtf8 (js "symlink"), encodeUtf8 (entryPath path), bytes]
  | .directory mode entries => do
      ensure (checkAccess path = true)
      let mode ← portableMode mode
      let _ ← readPortableDirectory unicode entries
      let hashed ← hashEntries path entries
      some ([encodeUtf8 (js "directory"), encodeUtf8 (entryPath path), encodeUtf8 (decimal mode)] ++
        (sortByKey hashed).flatMap Prod.snd)
  | .file mode nlink bytes => do
      ensure (checkAccess path = true)
      ensure (nlink = 1)
      let mode ← portableMode mode
      some [encodeUtf8 (js "file"), encodeUtf8 (entryPath path), encodeUtf8 (decimal mode),
        encodeUtf8 (decimal bytes.length), encodeUtf8 (hex (sha256 bytes))]
  | .special => none

def hashEntries (path : List JsString) : Entries → Option (List (JsString × List Bytes))
  | .nil => some []
  | .cons name node rest => do
      let entry ← decodePortablePathBytes name
      let fields ← hashTreeEntry (entry :: path) node
      let others ← hashEntries path rest
      some ((entry, fields) :: others)

end

def digestTree (root : Node) : Option JsString :=
  (hashTreeEntry unicode checkAccess [] root).map fun fields => hex (sha256 (updateHashFields fields))

end Digest

end PortableCodex.StoppedTree
