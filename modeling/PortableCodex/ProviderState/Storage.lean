import PortableCodex.ProviderState.Values

/-!
Storage states and the transitions between them.

`StorageState` carries the cross-field checks of `canonicalStorageState` as its field
`consistent`; `canonicalStorageState_reads` says that the JSON form of a storage state is
accepted and read back. `assertPreparePrecondition` and `assertStorageTransition` are the checks
a prepared and a committed frame make against the current storage.
-/

namespace PortableCodex.ProviderState

open Js

/-! ### Enumerations -/

inductive Kind where
  | provision
  | attach
  | detach
  | destroy
  | checkpoint
  | restore
  | restoreAttach
deriving DecidableEq

def Kind.text : Kind → JsString
  | .provision => js "provision"
  | .attach => js "attach"
  | .detach => js "detach"
  | .destroy => js "destroy"
  | .checkpoint => js "checkpoint"
  | .restore => js "restore"
  | .restoreAttach => js "restore-attach"

/-- `OPERATION_KINDS` -/
def operationKinds : List Kind :=
  [.provision, .attach, .detach, .destroy, .checkpoint, .restore, .restoreAttach]

def canonicalOperationKind : JsValue → Option Kind := enumeration operationKinds Kind.text

inductive Lifecycle where
  | provisioned
  | attached
  | detached
  | destroyed
deriving DecidableEq

def Lifecycle.text : Lifecycle → JsString
  | .provisioned => js "provisioned"
  | .attached => js "attached"
  | .detached => js "detached"
  | .destroyed => js "destroyed"

/-- `LIFECYCLES` -/
def lifecycles : List Lifecycle := [.provisioned, .attached, .detached, .destroyed]

def canonicalLifecycle : JsValue → Option Lifecycle := enumeration lifecycles Lifecycle.text

theorem enumeration_reads {α : Type} {all : List α} {text : α → JsString}
    (found : ∀ a, enumeration all text (.string (text a)) = some a) :
    Reads (enumeration all text) fun a => .string (text a) := by
  intro form a
  rw [form.of_string, found]

theorem canonicalOperationKind_reads : Reads canonicalOperationKind fun k => .string k.text :=
  enumeration_reads fun k => by cases k <;> decide

theorem canonicalLifecycle_reads : Reads canonicalLifecycle fun l => .string l.text :=
  enumeration_reads fun l => by cases l <;> decide

/-! ### Records -/

structure PhysicalIdentity where
  filesystemId : OpaqueId
  objectIdentityScheme : OpaqueId
  objectId : ObjectId
deriving DecidableEq

def physicalIdentityKeys : List JsString :=
  [js "filesystemId", js "objectIdentityScheme", js "objectId"]

def PhysicalIdentity.json (identity : PhysicalIdentity) : JsValue :=
  record physicalIdentityKeys
    [textJson identity.filesystemId, textJson identity.objectIdentityScheme, textJson identity.objectId]

def canonicalPhysicalIdentity (value : JsValue) : Option PhysicalIdentity := do
  let [filesystemId, objectIdentityScheme, objectId] ← exactDataFields value physicalIdentityKeys | none
  let objectId ← canonicalObjectId objectId
  let filesystemId ← canonicalOpaqueId filesystemId
  let objectIdentityScheme ← canonicalOpaqueId objectIdentityScheme
  some { filesystemId, objectIdentityScheme, objectId }

structure Mount where
  mountPath : AbsolutePath
  imageIdentity : PhysicalIdentity
  rootIdentity : PhysicalIdentity
deriving DecidableEq

def mountKeys : List JsString := [js "mountPath", js "imageIdentity", js "rootIdentity"]

def Mount.json (mount : Mount) : JsValue :=
  record mountKeys [textJson mount.mountPath, mount.imageIdentity.json, mount.rootIdentity.json]

def canonicalMount (value : JsValue) : Option Mount := do
  let [mountPath, imageIdentity, rootIdentity] ← exactDataFields value mountKeys | none
  let mountPath ← canonicalAbsolutePath mountPath
  let imageIdentity ← canonicalPhysicalIdentity imageIdentity
  let rootIdentity ← canonicalPhysicalIdentity rootIdentity
  some { mountPath, imageIdentity, rootIdentity }

structure DataRoot where
  rootPath : AbsolutePath
  imageIdentity : PhysicalIdentity
  rootIdentity : PhysicalIdentity
deriving DecidableEq

def dataRootKeys : List JsString := [js "rootPath", js "imageIdentity", js "rootIdentity"]

def DataRoot.json (dataRoot : DataRoot) : JsValue :=
  record dataRootKeys [textJson dataRoot.rootPath, dataRoot.imageIdentity.json, dataRoot.rootIdentity.json]

def canonicalDataRoot (value : JsValue) : Option DataRoot := do
  let [rootPath, imageIdentity, rootIdentity] ← exactDataFields value dataRootKeys | none
  let rootPath ← canonicalAbsolutePath rootPath
  let imageIdentity ← canonicalPhysicalIdentity imageIdentity
  let rootIdentity ← canonicalPhysicalIdentity rootIdentity
  some { rootPath, imageIdentity, rootIdentity }

structure WriterAuthority where
  fencingEpoch : PositiveUint64
  holderId : OpaqueId
  leaseId : OpaqueId
deriving DecidableEq

def writerAuthorityKeys : List JsString := [js "fencingEpoch", js "holderId", js "leaseId"]

def WriterAuthority.json (authority : WriterAuthority) : JsValue :=
  record writerAuthorityKeys
    [uint64Json authority.fencingEpoch, textJson authority.holderId, textJson authority.leaseId]

def canonicalWriterAuthority (value : JsValue) : Option WriterAuthority := do
  let [fencingEpoch, holderId, leaseId] ← exactDataFields value writerAuthorityKeys | none
  let fencingEpoch ← canonicalPositiveUint64 fencingEpoch
  let holderId ← canonicalOpaqueId holderId
  let leaseId ← canonicalOpaqueId leaseId
  some { fencingEpoch, holderId, leaseId }

structure Attachment where
  attachmentId : OpaqueId
  leaseId : OpaqueId
  holderId : OpaqueId
  fencingEpoch : Uint64
  rootPath : AbsolutePath
  proofId : OpaqueId
  imageIdentity : PhysicalIdentity
  rootIdentity : PhysicalIdentity
deriving DecidableEq

def attachmentKeys : List JsString :=
  [js "attachmentId", js "leaseId", js "holderId", js "fencingEpoch", js "rootPath", js "proofId",
    js "imageIdentity", js "rootIdentity"]

def Attachment.json (attachment : Attachment) : JsValue :=
  record attachmentKeys
    [textJson attachment.attachmentId, textJson attachment.leaseId, textJson attachment.holderId,
      uint64Json attachment.fencingEpoch, textJson attachment.rootPath, textJson attachment.proofId,
      attachment.imageIdentity.json, attachment.rootIdentity.json]

def canonicalAttachment (value : JsValue) : Option Attachment := do
  let [attachmentId, leaseId, holderId, fencingEpoch, rootPath, proofId, imageIdentity, rootIdentity] ←
    exactDataFields value attachmentKeys | none
  let attachmentId ← canonicalOpaqueId attachmentId
  let leaseId ← canonicalOpaqueId leaseId
  let holderId ← canonicalOpaqueId holderId
  let fencingEpoch ← canonicalUint64 fencingEpoch
  let rootPath ← canonicalAbsolutePath rootPath
  let proofId ← canonicalOpaqueId proofId
  let imageIdentity ← canonicalPhysicalIdentity imageIdentity
  let rootIdentity ← canonicalPhysicalIdentity rootIdentity
  some { attachmentId, leaseId, holderId, fencingEpoch, rootPath, proofId, imageIdentity, rootIdentity }

/-- The fields of a storage state, each checked by itself. -/
structure StorageRecord where
  storageId : OpaqueId
  sessionId : OpaqueId
  backendId : OpaqueId
  filesystemId : OpaqueId
  imagePath : AbsolutePath
  lifecycle : Lifecycle
  revision : PositiveUint64
  writerEpoch : Uint64
  writerAuthority : Option WriterAuthority
  mount : Option Mount
  publicationControlIdentity : Option PhysicalIdentity
  dataRoot : Option DataRoot
  attachment : Option Attachment
deriving DecidableEq

namespace StorageRecord

variable (state : StorageRecord)

/-- A lifecycle decides which parts are present. -/
def PartsPresent : Prop :=
  (if state.lifecycle = .destroyed then state.mount = none else state.mount ≠ none) ∧
    (if state.lifecycle = .destroyed then state.publicationControlIdentity = none
      else state.publicationControlIdentity ≠ none) ∧
    (if state.lifecycle = .attached then state.attachment ≠ none else state.attachment = none) ∧
    (state.lifecycle = .destroyed → state.dataRoot = none)

/-- The control identity lies beside the root of the mount. -/
def PublicationBeside (identity : PhysicalIdentity) : Prop :=
  identity.filesystemId = state.filesystemId ∧
    ∃ mount ∈ state.mount, identity.objectIdentityScheme = mount.rootIdentity.objectIdentityScheme ∧
      identity.objectId ≠ mount.rootIdentity.objectId

/-- The data root lies directly inside the mount. -/
def DataRootInside (dataRoot : DataRoot) : Prop :=
  dataRoot.rootIdentity.filesystemId = state.filesystemId ∧
    ∃ mount ∈ state.mount, dirname dataRoot.rootPath.val = mount.mountPath.val ∧
      basename dataRoot.rootPath.val ∉ [[], js ".", js ".."] ∧
      dataRoot.imageIdentity = mount.imageIdentity ∧ dataRoot.rootIdentity ≠ mount.rootIdentity

/-- The attachment is the one of the writer and of the data root. -/
def AttachmentCurrent (attachment : Attachment) : Prop :=
  attachment.fencingEpoch.val = state.writerEpoch.val ∧
    (∃ authority ∈ state.writerAuthority, attachment.fencingEpoch.val = authority.fencingEpoch.val ∧
      attachment.holderId = authority.holderId ∧ attachment.leaseId = authority.leaseId) ∧
    ∃ dataRoot ∈ state.dataRoot, attachment.rootPath = dataRoot.rootPath ∧
      attachment.imageIdentity = dataRoot.imageIdentity ∧ attachment.rootIdentity = dataRoot.rootIdentity

/-- The cross-field checks of `canonicalStorageState`. -/
def Consistent : Prop :=
  state.PartsPresent ∧
    (∀ authority ∈ state.writerAuthority, authority.fencingEpoch.val = state.writerEpoch.val) ∧
    (∀ mount ∈ state.mount, mount.rootIdentity.filesystemId = state.filesystemId) ∧
    (∀ identity ∈ state.publicationControlIdentity, state.PublicationBeside identity) ∧
    (∀ dataRoot ∈ state.dataRoot, state.DataRootInside dataRoot) ∧
    ∀ attachment ∈ state.attachment, state.AttachmentCurrent attachment

instance : Decidable state.PartsPresent := inferInstanceAs (Decidable (_ ∧ _ ∧ _ ∧ _))

instance (identity : PhysicalIdentity) : Decidable (state.PublicationBeside identity) :=
  inferInstanceAs (Decidable (_ ∧ _))

instance (dataRoot : DataRoot) : Decidable (state.DataRootInside dataRoot) :=
  inferInstanceAs (Decidable (_ ∧ _))

instance (attachment : Attachment) : Decidable (state.AttachmentCurrent attachment) :=
  inferInstanceAs (Decidable (_ ∧ _ ∧ _))

instance : Decidable state.Consistent := inferInstanceAs (Decidable (_ ∧ _ ∧ _ ∧ _ ∧ _ ∧ _))

end StorageRecord

/-- A storage state that `canonicalStorageState` accepts. -/
structure StorageState extends StorageRecord where
  consistent : toStorageRecord.Consistent
deriving DecidableEq

/-- `STORAGE_STATE_KEYS` -/
def storageStateKeys : List JsString :=
  [js "storageId", js "sessionId", js "backendId", js "filesystemId", js "imagePath", js "lifecycle",
    js "revision", js "writerEpoch", js "writerAuthority", js "mount", js "publicationControlIdentity",
    js "dataRoot", js "attachment"]

def StorageState.json (state : StorageState) : JsValue :=
  record storageStateKeys
    [textJson state.storageId, textJson state.sessionId, textJson state.backendId,
      textJson state.filesystemId, textJson state.imagePath, .string state.lifecycle.text,
      uint64Json state.revision, uint64Json state.writerEpoch,
      nullableJson WriterAuthority.json state.writerAuthority, nullableJson Mount.json state.mount,
      nullableJson PhysicalIdentity.json state.publicationControlIdentity,
      nullableJson DataRoot.json state.dataRoot, nullableJson Attachment.json state.attachment]

def canonicalStorageState (value : JsValue) : Option StorageState := do
  let [storageId, sessionId, backendId, filesystemId, imagePath, lifecycle, revision, writerEpoch,
    writerAuthority, mount, publicationControlIdentity, dataRoot, attachment] ←
    exactDataFields value storageStateKeys | none
  let lifecycle ← canonicalLifecycle lifecycle
  let revision ← canonicalPositiveUint64 revision
  let writerEpoch ← canonicalUint64 writerEpoch
  let writerAuthority ← nullable canonicalWriterAuthority writerAuthority
  let mount ← nullable canonicalMount mount
  let publicationControlIdentity ← nullable canonicalPhysicalIdentity publicationControlIdentity
  let dataRoot ← nullable canonicalDataRoot dataRoot
  let attachment ← nullable canonicalAttachment attachment
  let storageId ← canonicalOpaqueId storageId
  let sessionId ← canonicalOpaqueId sessionId
  let backendId ← canonicalOpaqueId backendId
  let filesystemId ← canonicalOpaqueId filesystemId
  let imagePath ← canonicalAbsolutePath imagePath
  let state : StorageRecord :=
    { storageId, sessionId, backendId, filesystemId, imagePath, lifecycle, revision, writerEpoch,
      writerAuthority, mount, publicationControlIdentity, dataRoot, attachment }
  if consistent : state.Consistent then some { toStorageRecord := state, consistent } else none

structure ExpectedStorage where
  lifecycle : Lifecycle
  revision : PositiveUint64
deriving DecidableEq

def expectedStorageKeys : List JsString := [js "lifecycle", js "revision"]

def ExpectedStorage.json (expected : ExpectedStorage) : JsValue :=
  record expectedStorageKeys [.string expected.lifecycle.text, uint64Json expected.revision]

/-- `expectedStorageState` -/
def expectedStorageState (value : Option StorageState) : Option ExpectedStorage :=
  value.map fun state => { lifecycle := state.lifecycle, revision := state.revision }

def readExpectedStorage (value : JsValue) : Option ExpectedStorage := do
  let [lifecycle, revision] ← exactDataFields value expectedStorageKeys | none
  let lifecycle ← canonicalLifecycle lifecycle
  let revision ← canonicalPositiveUint64 revision
  some { lifecycle, revision }

def canonicalExpectedStorage : JsValue → Option (Option ExpectedStorage) := nullable readExpectedStorage

/-! ### Reading back -/

theorem exactDataFields_record {form : Form} {keys : List JsString} {values : List JsValue}
    (length : values.length = keys.length) (nodup : keys.Nodup) :
    exactDataFields (form.of (record keys values)) keys = some (values.map form.of) :=
  exactDataFields_of form nodup length

theorem canonicalPhysicalIdentity_reads : Reads canonicalPhysicalIdentity PhysicalIdentity.json := by
  intro form identity
  rw [PhysicalIdentity.json, canonicalPhysicalIdentity, exactDataFields_record rfl (by decide)]
  simp only [List.map_cons, List.map_nil, Option.bind_eq_bind, Option.bind_some,
    canonicalOpaqueId_reads _ _, canonicalObjectId_reads _ _]

theorem canonicalMount_reads : Reads canonicalMount Mount.json := by
  intro form mount
  rw [Mount.json, canonicalMount, exactDataFields_record rfl (by decide)]
  simp only [List.map_cons, List.map_nil, Option.bind_eq_bind, Option.bind_some,
    canonicalAbsolutePath_reads _ _, canonicalPhysicalIdentity_reads _ _]

theorem canonicalDataRoot_reads : Reads canonicalDataRoot DataRoot.json := by
  intro form dataRoot
  rw [DataRoot.json, canonicalDataRoot, exactDataFields_record rfl (by decide)]
  simp only [List.map_cons, List.map_nil, Option.bind_eq_bind, Option.bind_some,
    canonicalAbsolutePath_reads _ _, canonicalPhysicalIdentity_reads _ _]

theorem canonicalWriterAuthority_reads : Reads canonicalWriterAuthority WriterAuthority.json := by
  intro form authority
  rw [WriterAuthority.json, canonicalWriterAuthority, exactDataFields_record rfl (by decide)]
  simp only [List.map_cons, List.map_nil, Option.bind_eq_bind, Option.bind_some,
    canonicalPositiveUint64_reads _ _, canonicalOpaqueId_reads _ _]

theorem canonicalAttachment_reads : Reads canonicalAttachment Attachment.json := by
  intro form attachment
  rw [Attachment.json, canonicalAttachment, exactDataFields_record rfl (by decide)]
  simp only [List.map_cons, List.map_nil, Option.bind_eq_bind, Option.bind_some,
    canonicalUint64_reads _ _, canonicalOpaqueId_reads _ _, canonicalAbsolutePath_reads _ _,
    canonicalPhysicalIdentity_reads _ _]

theorem read_then {α β : Type} {read : Option α} {next : α → Option β} {a : α} {b : β}
    (head : read = some a) (rest : next a = some b) : (read >>= next) = some b := by
  rw [head]
  exact rest

theorem canonicalStorageState_reads : Reads canonicalStorageState StorageState.json := by
  intro form state
  rw [StorageState.json, canonicalStorageState]
  refine read_then (exactDataFields_record rfl (by decide)) ?_
  dsimp only [List.map_cons, List.map_nil]
  refine read_then (canonicalLifecycle_reads form state.lifecycle) ?_
  refine read_then (canonicalPositiveUint64_reads form state.revision) ?_
  refine read_then (canonicalUint64_reads form state.writerEpoch) ?_
  refine read_then (nullable_reads canonicalWriterAuthority_reads rfl form state.writerAuthority) ?_
  refine read_then (nullable_reads canonicalMount_reads rfl form state.mount) ?_
  refine read_then
    (nullable_reads canonicalPhysicalIdentity_reads rfl form state.publicationControlIdentity) ?_
  refine read_then (nullable_reads canonicalDataRoot_reads rfl form state.dataRoot) ?_
  refine read_then (nullable_reads canonicalAttachment_reads rfl form state.attachment) ?_
  refine read_then (canonicalOpaqueId_reads form state.storageId) ?_
  refine read_then (canonicalOpaqueId_reads form state.sessionId) ?_
  refine read_then (canonicalOpaqueId_reads form state.backendId) ?_
  refine read_then (canonicalOpaqueId_reads form state.filesystemId) ?_
  refine read_then (canonicalAbsolutePath_reads form state.imagePath) ?_
  exact dif_pos state.consistent

theorem canonicalExpectedStorage_reads :
    Reads canonicalExpectedStorage (nullableJson ExpectedStorage.json) := by
  refine nullable_reads (fun form expected => ?_) rfl
  rw [ExpectedStorage.json, readExpectedStorage, exactDataFields_record rfl (by decide)]
  simp only [List.map_cons, List.map_nil, Option.bind_eq_bind, Option.bind_some,
    canonicalLifecycle_reads _ _, canonicalPositiveUint64_reads _ _]

/-! ### Transitions -/

def assertMountStable (previous next : StorageState) : Prop :=
  previous.mount ≠ none ∧ next.mount ≠ none ∧ previous.mount = next.mount ∧
    previous.publicationControlIdentity ≠ none ∧ next.publicationControlIdentity ≠ none ∧
    previous.publicationControlIdentity = next.publicationControlIdentity

/-- What an operation of a kind may be prepared on. -/
def assertPreparePrecondition (current : Option StorageState) (kind : Kind) : Prop :=
  match kind, current with
  | .provision, current => current = none
  | _, none => False
  | .attach, some state => state.lifecycle ∈ [.provisioned, .detached]
  | .restoreAttach, some state => state.lifecycle ∈ [.provisioned, .detached]
  | .detach, some state => state.lifecycle = .attached
  | .destroy, some state => state.lifecycle ∈ [.provisioned, .detached]
  | .checkpoint, some state => state.lifecycle ≠ .destroyed
  | .restore, some state => state.lifecycle ∈ [.provisioned, .detached]

/-- The first state of a storage. -/
def Provisioned (next : StorageState) : Prop :=
  next.lifecycle = .provisioned ∧ next.revision.val = 1 ∧ next.writerEpoch.val = 0 ∧
    next.writerAuthority = none ∧ next.mount ≠ none ∧ next.publicationControlIdentity ≠ none ∧
    next.dataRoot = none ∧ next.attachment = none

/-- What every later state keeps, and its revision. -/
def SameStorage (previous next : StorageState) : Prop :=
  previous.lifecycle ≠ .destroyed ∧ next.storageId = previous.storageId ∧
    next.sessionId = previous.sessionId ∧ next.backendId = previous.backendId ∧
    next.filesystemId = previous.filesystemId ∧ next.imagePath = previous.imagePath ∧
    incrementUint64 previous.revision.val = some next.revision.val

/-- The two attachments differ in what they require of a data root that is already there. -/
def Attaches (previous next : StorageState) (dataRootKept : Prop) : Prop :=
  previous.lifecycle ∈ [.provisioned, .detached] ∧ next.lifecycle = .attached ∧ next.dataRoot ≠ none ∧
    (previous.dataRoot = none ∨ dataRootKept) ∧ previous.writerEpoch.val < next.writerEpoch.val ∧
    assertMountStable previous next

def Detaches (previous next : StorageState) : Prop :=
  previous.lifecycle = .attached ∧ next.lifecycle = .detached ∧ next.writerEpoch = previous.writerEpoch ∧
    previous.writerAuthority = next.writerAuthority ∧ previous.dataRoot = next.dataRoot ∧
    assertMountStable previous next

def Destroys (previous next : StorageState) : Prop :=
  previous.lifecycle ∈ [.provisioned, .detached] ∧ next.lifecycle = .destroyed ∧
    next.writerEpoch = previous.writerEpoch ∧ previous.writerAuthority = next.writerAuthority ∧
    next.mount = none ∧ next.publicationControlIdentity = none ∧ next.dataRoot = none ∧
    next.attachment = none

/-- A checkpoint or a restore changes nothing but the revision. -/
def KeepsState (previous next : StorageState) : Prop :=
  next.lifecycle = previous.lifecycle ∧ next.writerEpoch = previous.writerEpoch ∧
    previous.writerAuthority = next.writerAuthority ∧ assertMountStable previous next ∧
    previous.attachment = next.attachment ∧ previous.dataRoot = next.dataRoot

def assertStorageTransition (previous : Option StorageState) (next : StorageState) (kind : Kind) : Prop :=
  match previous, kind with
  | none, kind => kind = .provision ∧ Provisioned next
  | some _, .provision => False
  | some previous, .attach =>
      SameStorage previous next ∧ Attaches previous next (previous.dataRoot = next.dataRoot)
  | some previous, .restoreAttach =>
      SameStorage previous next ∧ Attaches previous next (previous.dataRoot ≠ next.dataRoot)
  | some previous, .detach => SameStorage previous next ∧ Detaches previous next
  | some previous, .destroy => SameStorage previous next ∧ Destroys previous next
  | some previous, .checkpoint => SameStorage previous next ∧ KeepsState previous next
  | some previous, .restore => SameStorage previous next ∧ KeepsState previous next

section

variable (previous next : StorageState)

instance : Decidable (assertMountStable previous next) :=
  inferInstanceAs (Decidable (_ ∧ _ ∧ _ ∧ _ ∧ _ ∧ _))

instance : Decidable (Provisioned next) := inferInstanceAs (Decidable (_ ∧ _ ∧ _ ∧ _ ∧ _ ∧ _ ∧ _ ∧ _))

instance : Decidable (SameStorage previous next) :=
  inferInstanceAs (Decidable (_ ∧ _ ∧ _ ∧ _ ∧ _ ∧ _ ∧ _))

instance (P : Prop) [Decidable P] : Decidable (Attaches previous next P) :=
  inferInstanceAs (Decidable (_ ∧ _ ∧ _ ∧ _ ∧ _ ∧ _))

instance : Decidable (Detaches previous next) := inferInstanceAs (Decidable (_ ∧ _ ∧ _ ∧ _ ∧ _ ∧ _))

instance : Decidable (Destroys previous next) :=
  inferInstanceAs (Decidable (_ ∧ _ ∧ _ ∧ _ ∧ _ ∧ _ ∧ _ ∧ _))

instance : Decidable (KeepsState previous next) := inferInstanceAs (Decidable (_ ∧ _ ∧ _ ∧ _ ∧ _ ∧ _))

end

instance (current : Option StorageState) (kind : Kind) : Decidable (assertPreparePrecondition current kind) := by
  cases kind <;> cases current <;> unfold assertPreparePrecondition <;> infer_instance

instance (previous : Option StorageState) (next : StorageState) (kind : Kind) :
    Decidable (assertStorageTransition previous next kind) := by
  cases previous <;> cases kind <;> unfold assertStorageTransition <;> infer_instance

end PortableCodex.ProviderState
