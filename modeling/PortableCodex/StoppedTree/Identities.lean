import PortableCodex.Js.Map
import PortableCodex.ProviderState.Values
import PortableCodex.StoppedTree.Traversal

/-!
The digest of the persistent identities of a stopped tree.

Every object is bound to the persistent ID that an inspector gives it. The map `objectIds` holds the
bindings in both directions and can be shared between digests; a call that fails leaves in it what it had
bound so far, which is what `.error` carries. As before nothing else changes the tree, so an object that is
looked at twice is the same.
-/

namespace PortableCodex.StoppedTree

open Js
open ProviderState (ensure exactDataFields IsDecimal IsOpaqueId)

/-- `dev` and `ino` of an object. -/
structure FileIdentity where
  dev : Nat
  ino : Nat
deriving DecidableEq

/-- `fileIdentityKey` -/
def fileIdentityKey (metadata : FileIdentity) : JsString := decimal metadata.dev ++ 58 :: decimal metadata.ino

/-- `/^[A-Za-z0-9][A-Za-z0-9._:-]{0,255}$/u` -/
def IsObjectId : JsString → Prop
  | [] => False
  | u :: rest => isAlphanumeric u = true ∧ rest.length ≤ 255 ∧ ∀ v ∈ rest, isOpaqueUnit v = true

instance : DecidablePred IsObjectId
  | [] => .isFalse id
  | _ :: _ => inferInstanceAs (Decidable (_ ∧ _ ∧ _))

/-- `assertPersistentObjectIdentity` -/
def assertPersistentObjectIdentity (value : JsValue) : Option (FileIdentity × JsString) := do
  let [.string device, .string inode, .string objectId] ←
    exactDataFields value [js "device", js "inode", js "objectId"] | none
  ensure (IsDecimal device)
  ensure (IsDecimal inode ∧ inode ≠ js "0")
  ensure (IsObjectId objectId)
  some ({ dev := digitsValue device, ino := digitsValue inode }, objectId)

/-- `bindStoppedTreeObjectIdentity` -/
def bindStoppedTreeObjectIdentity (value : JsValue) (expectedIdentity : FileIdentity) : Option JsString := do
  let (runtimeIdentity, objectId) ← assertPersistentObjectIdentity value
  ensure (runtimeIdentity = expectedIdentity)
  some objectId

/-- What a call is given, and what it sees of the objects under its root. -/
structure IdentityContext where
  unicode : Unicode
  filesystemId : JsString
  objectIdentityScheme : JsString
  lstat : List JsString → FileIdentity
  /-- `none` where the inspector throws. -/
  inspectPersistentObjectIdentity : List JsString → Option JsValue

/-- `stoppedTreeEntryKind`; `none` is the rejected kind. -/
def Node.kind : Node → Option JsString
  | .directory _ _ => some (js "directory")
  | .file _ _ _ => some (js "file")
  | .symlink _ _ => some (js "symlink")
  | .special => none

@[ext] structure Tuple where
  path : JsString
  kind : JsString
  objectId : JsString
deriving DecidableEq

abbrev ObjectIds := JsMap JsString JsString

structure Identities where
  objectIds : ObjectIds
  tuples : List Tuple

/-- What a step leaves when it fails is its error. -/
abbrev Collects := Identities → Except Identities Identities

def runtimeKey (runtimeIdentity : JsString) : JsString := js "runtime" ++ 0 :: runtimeIdentity

def persistentKey (persistentIdentityKey : JsString) : JsString := js "persistent" ++ 0 :: persistentIdentityKey

namespace IdentityContext

variable (context : IdentityContext)

/-- `inspectStoppedTreeObjectIdentity` -/
def inspectStoppedTreeObjectIdentity (path : List JsString) : Option JsString := do
  bindStoppedTreeObjectIdentity (← context.inspectPersistentObjectIdentity path) (context.lstat path)

def persistentIdentityKey (objectId : JsString) : JsString :=
  context.filesystemId ++ 0 :: (context.objectIdentityScheme ++ 0 :: objectId)

/-- No other object has the persistent ID, and the object has no other persistent ID. -/
def Unaliased (objectIds : ObjectIds) (runtimeIdentity persistentIdentity : JsString) : Prop :=
  (∀ previous ∈ objectIds.get? (persistentKey persistentIdentity), previous = runtimeIdentity) ∧
    ∀ previous ∈ objectIds.get? (runtimeKey runtimeIdentity), previous = persistentIdentity

instance (objectIds : ObjectIds) (runtimeIdentity persistentIdentity : JsString) :
    Decidable (Unaliased objectIds runtimeIdentity persistentIdentity) := inferInstanceAs (Decidable (_ ∧ _))

/-- What `collectPersistentTreeIdentities` does for an object before it looks at its entries. -/
def collectObject (path : List JsString) (kind : Option JsString) : Collects := fun s =>
  if (context.lstat path).dev ≠ (context.lstat []).dev then .error s
  else match context.inspectStoppedTreeObjectIdentity path with
    | none => .error s
    | some objectId =>
        let runtimeIdentity := fileIdentityKey (context.lstat path)
        let persistentIdentity := context.persistentIdentityKey objectId
        if Unaliased s.objectIds runtimeIdentity persistentIdentity then
          let objectIds := (s.objectIds.set (persistentKey persistentIdentity) runtimeIdentity).set
            (runtimeKey runtimeIdentity) persistentIdentity
          match kind with
          | none => .error { s with objectIds }
          | some kind =>
              .ok { objectIds, tuples := s.tuples ++ [{ path := List.intercalate [47] path.reverse, kind, objectId }] }
        else .error s

mutual

/-- `collectPersistentTreeIdentities`, of the object at a path below the root. -/
def collectPersistentTreeIdentities (path : List JsString) : Node → Collects
  | .directory mode entries => fun s => do
      let s ← context.collectObject path (Node.directory mode entries).kind s
      match readPortableDirectory context.unicode entries with
      | none => .error s
      | some _ => (sortByKey (collectEntries path entries)).foldlM (fun s entry => entry.2 s) s
  | .file mode nlink bytes => context.collectObject path (Node.file mode nlink bytes).kind
  | .symlink nlink target => context.collectObject path (Node.symlink nlink target).kind
  | .special => context.collectObject path Node.special.kind

/-- The visits of the entries of a directory whose names have been read. -/
def collectEntries (path : List JsString) : Entries → List (JsString × Collects)
  | .nil => []
  | .cons name node rest =>
      (decodeUtf8 name, collectPersistentTreeIdentities (decodeUtf8 name :: path) node) :: collectEntries path rest

end

/-- What `digestStoppedTreeIdentities` feeds to the hash. -/
def identityStream (tuples : List Tuple) : Bytes :=
  encodeUtf8 (js "portable-stopped-tree-object-identities-v1" ++ [0]) ++
    updateHashFields ([encodeUtf8 context.filesystemId, encodeUtf8 context.objectIdentityScheme] ++
      tuples.flatMap fun tuple => [encodeUtf8 tuple.path, encodeUtf8 tuple.kind, encodeUtf8 tuple.objectId])

/-- `digestStoppedTreeIdentities`: what it hashes and the map it leaves. -/
def digestStoppedTreeIdentities (root : Node) (objectIds : ObjectIds) : Except ObjectIds (Bytes × ObjectIds) :=
  if IsOpaqueId context.filesystemId ∧ IsOpaqueId context.objectIdentityScheme then
    match context.collectPersistentTreeIdentities [] root { objectIds, tuples := [] } with
    | .ok s => .ok (context.identityStream s.tuples, s.objectIds)
    | .error s => .error s.objectIds
  else .error objectIds

end IdentityContext

end PortableCodex.StoppedTree
