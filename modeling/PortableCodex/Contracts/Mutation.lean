import PortableCodex.Contracts.SessionStorage

/-!
Storage mutations and checkpoints of the session storage contracts.

A `StorageMutationRequest` holds the checks of `assertStorageMutationRequest`; its target has the shape
that its operation asks for. A result is accepted only for the request that it names.
-/

namespace PortableCodex.Contracts

open Js ProviderState

inductive MutationOperation where
  | attach
  | checkpoint
  | destroy
  | detach
  | restore
deriving DecidableEq

namespace MutationOperation

def text : MutationOperation → JsString
  | .attach => js "attach"
  | .checkpoint => js "checkpoint"
  | .destroy => js "destroy"
  | .detach => js "detach"
  | .restore => js "restore"

/-- The status of its result. -/
def status : MutationOperation → JsString
  | .attach => js "attached"
  | .checkpoint => js "checkpoint-created"
  | .destroy => js "destroyed"
  | .detach => js "detached"
  | .restore => js "restored"

def all : List MutationOperation := [.attach, .checkpoint, .destroy, .detach, .restore]

def read (value : JsValue) : Option MutationOperation := all.find? fun operation => isText operation.text value

end MutationOperation

inductive MutationTarget where
  | attachment (attachmentId : OpaqueId)
  | checkpoint (artifactId checkpointId : OpaqueId)
  | storage (storageId : OpaqueId)
deriving DecidableEq

/-- The target of `attach` and `detach`. -/
def attachmentTarget (value : JsValue) : Option MutationTarget := do
  let [attachment, kind] ← exactDataFields value [js "attachmentId", js "kind"] | none
  ensure (isText (js "attachment") kind)
  let attachmentId ← canonicalOpaqueId attachment
  some (.attachment attachmentId)

/-- The target of `checkpoint` and `restore`. -/
def checkpointTarget (value : JsValue) : Option MutationTarget := do
  let [artifact, checkpoint, kind] ← exactDataFields value [js "artifactId", js "checkpointId", js "kind"] | none
  ensure (isText (js "checkpoint") kind)
  let artifactId ← canonicalOpaqueId artifact
  let checkpointId ← canonicalOpaqueId checkpoint
  some (.checkpoint artifactId checkpointId)

/-- The target of `destroy`, the storage of the request. -/
def storageTarget (value : JsValue) (storageId : OpaqueId) : Option MutationTarget := do
  let [kind, storage] ← exactDataFields value [js "kind", js "storageId"] | none
  ensure (isText (js "storage") kind)
  let target ← canonicalOpaqueId storage
  ensure (target = storageId)
  some (.storage target)

/-- `assertStorageMutationTarget` -/
def assertStorageMutationTarget (value : JsValue) (storageId : OpaqueId) : MutationOperation → Option MutationTarget
  | .attach => attachmentTarget value
  | .checkpoint => checkpointTarget value
  | .destroy => storageTarget value storageId
  | .detach => attachmentTarget value
  | .restore => checkpointTarget value

structure StorageMutationRequest where
  backendId : OpaqueId
  fencingEpoch : PositiveUint64
  holderId : OpaqueId
  leaseId : OpaqueId
  operation : MutationOperation
  operationId : OpaqueId
  sessionId : Uuid
  storageId : OpaqueId
  target : MutationTarget
deriving DecidableEq

def mutationRequestKeys : List JsString :=
  [js "backendId", js "contractVersion", js "fencingEpoch", js "holderId", js "leaseId", js "operation",
    js "operationId", js "sessionId", js "storageId", js "target"]

def assertStorageMutationRequest (value : JsValue) : Option StorageMutationRequest := do
  let [backend, version, epoch, holder, lease, kind, id, session, storage, place] ←
    exactDataFields value mutationRequestKeys | none
  ensure (isContractVersion version)
  let backendId ← canonicalOpaqueId backend
  let storageId ← canonicalOpaqueId storage
  let sessionId ← uuid session
  let leaseId ← canonicalOpaqueId lease
  let holderId ← canonicalOpaqueId holder
  let operationId ← canonicalOpaqueId id
  let fencingEpoch ← fencingEpoch epoch
  let operation ← MutationOperation.read kind
  let target ← assertStorageMutationTarget place storageId operation
  some { backendId, fencingEpoch, holderId, leaseId, operation, operationId, sessionId, storageId, target }

def mutationResultKeys : List JsString :=
  [js "backendId", js "contractVersion", js "fencingEpoch", js "holderId", js "leaseId", js "operation",
    js "operationId", js "proofId", js "sessionId", js "status", js "storageId", js "target"]

/-- `assertStorageMutationResult`: the proof ID of a result of the given request. -/
def assertStorageMutationResult (value : JsValue) (request : StorageMutationRequest) : Option OpaqueId := do
  let [backend, version, epoch, holder, lease, kind, id, proof, session, status, storage, place] ←
    exactDataFields value mutationResultKeys | none
  let actual ← assertStorageMutationRequest
    (record mutationRequestKeys [backend, version, epoch, holder, lease, kind, id, session, storage, place])
  let proofId ← canonicalOpaqueId proof
  ensure (isText actual.operation.status status)
  ensure (request = actual)
  some proofId

/-! ### Checkpoints -/

inductive CheckpointClass where
  | clean
  | gracefulAbort
  | crashPrefix
deriving DecidableEq

/-- `assertCheckpointClass` -/
def assertCheckpointClass (value : JsValue) : Option CheckpointClass :=
  if isText (js "clean") value then some .clean
  else if isText (js "graceful-abort") value then some .gracefulAbort
  else if isText (js "crash-prefix") value then some .crashPrefix
  else none

/-- `OCI_DIGEST_PATTERN` -/
def IsOciDigest (s : JsString) : Prop :=
  js "sha256:" <+: s ∧ s.length = 71 ∧ ∀ u ∈ s.drop 7, isLowerHex u = true

instance isOciDigestDecidable : DecidablePred IsOciDigest := fun _ => inferInstanceAs (Decidable (_ ∧ _ ∧ _))

abbrev OciDigest := { s : JsString // IsOciDigest s }

structure CheckpointDescriptor where
  artifactId : OpaqueId
  backendId : OpaqueId
  checkpointClass : CheckpointClass
  checkpointId : OpaqueId
  codexThreadId : Uuid
  createdAt : IsoTimestamp
  imageDigest : OciDigest
  sessionId : Uuid
  sourceFencingEpoch : PositiveUint64
  storageId : OpaqueId
deriving DecidableEq

def checkpointDescriptorKeys : List JsString :=
  [js "artifactId", js "backendId", js "checkpointClass", js "checkpointId", js "codexSessionId", js "codexThreadId",
    js "contractVersion", js "createdAt", js "imageDigest", js "sessionId", js "sourceFencingEpoch", js "storageId"]

/-- `assertCheckpointDescriptor` without options; the session-tree ID is the thread ID. -/
def assertCheckpointDescriptor (value : JsValue) : Option CheckpointDescriptor := do
  let [artifact, backend, kind, checkpoint, tree, thread, version, created, image, session, epoch, storage] ←
    exactDataFields value checkpointDescriptorKeys | none
  ensure (isContractVersion version)
  let checkpointId ← canonicalOpaqueId checkpoint
  let artifactId ← canonicalOpaqueId artifact
  let backendId ← canonicalOpaqueId backend
  let storageId ← canonicalOpaqueId storage
  let sessionId ← uuid session
  let codexThreadId ← uuid thread
  let codexSessionId ← uuid tree
  ensure (codexThreadId = codexSessionId)
  let imageDigest ← checkedText IsOciDigest image
  let sourceFencingEpoch ← fencingEpoch epoch
  let checkpointClass ← assertCheckpointClass kind
  let createdAt ← isoTimestamp created
  some { artifactId, backendId, checkpointClass, checkpointId, codexThreadId, createdAt, imageDigest, sessionId,
         sourceFencingEpoch, storageId }

end PortableCodex.Contracts
