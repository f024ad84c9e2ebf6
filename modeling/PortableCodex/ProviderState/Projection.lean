import PortableCodex.ProviderState.Ledger

/-!
What a provider tells its authority of the state it has loaded: `authorityProjectionRequest`.

A projection names the prepared operations, by a checksum over their records, and for every attached storage
the operation that attached it. The storage itself enters by a checksum that leaves its revision out, since
checkpoints and restores count the revision on and keep everything else.
-/

namespace PortableCodex.ProviderState

open Js

/-! ### Digests -/

def preparedProjectionDomain : Bytes :=
  domain "portable-codex/filesystem-image-provider-state/prepared-projection/v1"

def stableStorageProjectionDomain : Bytes :=
  domain "portable-codex/filesystem-image-provider-state/stable-storage-projection/v1"

def attachmentOriginProjectionDomain : Bytes :=
  domain "portable-codex/filesystem-image-provider-state/attachment-origin-projection/v1"

def authorityProjectionReceiptDomain : Bytes :=
  domain "portable-codex/filesystem-image-provider-state/authority-projection-receipt/v1"

/-- `updateLengthPrefixedProjectionHash`: what it gives to the hash. -/
def lengthPrefixed (value : JsValue) : Bytes :=
  let bytes := encodeUtf8 (canonicalString value)
  encodeUtf8 (decimal bytes.length ++ [0]) ++ bytes

/-- The checksum of a domain, a count and length-prefixed values. -/
def countedProjectionChecksum (domain : Bytes) (count : Nat) (values : List JsValue) : Checksum :=
  hexChecksum (domain ++ encodeUtf8 (decimal count ++ [0]) ++ values.flatMap lengthPrefixed)

/-- `digestCanonicalProjection` -/
def canonicalProjectionChecksum (domain : Bytes) (value : JsValue) : Checksum :=
  hexChecksum (domain ++ encodeUtf8 (canonicalString value))

/-! ### Storages without their revisions -/

/-- A storage with revision 1. No check of `canonicalStorageState` looks at the revision but its own. -/
def StorageState.stable (storage : StorageState) : StorageState where
  toStorageRecord := { storage.toStorageRecord with revision := ⟨1, positiveUint64_one⟩ }
  consistent := storage.consistent

def stableStorageProjectionChecksum (storage : StorageState) : Checksum :=
  canonicalProjectionChecksum stableStorageProjectionDomain storage.stable.json

/-! ### Prepared operations -/

def preparedOperations (state : GenerationState) : List Operation :=
  state.operations.values.filter fun operation => operation.commit = none

/-- The prepared operations by storage; two on one storage are a corrupt ledger. -/
def sortedPreparedCheckpointRecords (state : GenerationState) : Option (List Operation) := do
  let records := preparedOperations state
  ensure (records.map (·.storageId)).Nodup
  some (sortById (·.storageId) records)

def preparedProjectionChecksum (records : List Operation) : Checksum :=
  countedProjectionChecksum preparedProjectionDomain records.length (records.map (·.json))

/-! ### Attachment origins -/

structure AttachmentOrigin where
  currentStorageRevision : PositiveUint64
  operationId : OpaqueId
  stableStorageChecksum : Checksum
  storageId : OpaqueId
deriving DecidableEq

/-- `ATTACHMENT_ORIGIN_KEYS` -/
def attachmentOriginKeys : List JsString :=
  [js "currentStorageRevision", js "operationId", js "stableStorageChecksum", js "storageId"]

def AttachmentOrigin.json (origin : AttachmentOrigin) : JsValue :=
  record attachmentOriginKeys
    [uint64Json origin.currentStorageRevision, textJson origin.operationId,
      textJson origin.stableStorageChecksum, textJson origin.storageId]

def attachmentOriginsChecksum (origins : List AttachmentOrigin) : Checksum :=
  countedProjectionChecksum attachmentOriginProjectionDomain origins.length (origins.map (·.json))

/-- The origin of one storage, if it is attached. An origin of another storage, or none of an attached one, is a
corrupt ledger. -/
def attachmentOriginOf (state : GenerationState) (storageId : OpaqueId) (storage : StorageState) :
    Option (Option AttachmentOrigin) :=
  let operationId := (state.attachmentOrigins.get? storageId).getD none
  if storage.lifecycle ≠ .attached then do
    ensure (operationId = none)
    some none
  else do
    let operationId ← operationId
    some (some {
      currentStorageRevision := storage.revision
      operationId
      stableStorageChecksum := stableStorageProjectionChecksum storage
      storageId })

/-! ### The request -/

/-- What the receipt of a projection is a checksum of. -/
structure ReceiptMaterial where
  attachmentOriginCount : Nat
  attachmentOriginsChecksum : Checksum
  expectedHeadChecksum : Checksum
  preparedOperationCount : Nat
  preparedProjectionChecksum : Checksum

def receiptMaterialKeys : List JsString :=
  [js "attachmentOriginCount", js "attachmentOriginsChecksum", js "expectedHeadChecksum",
    js "preparedOperationCount", js "preparedProjectionChecksum"]

def ReceiptMaterial.json (material : ReceiptMaterial) : JsValue :=
  record receiptMaterialKeys
    [.number (ofNat material.attachmentOriginCount), textJson material.attachmentOriginsChecksum,
      textJson material.expectedHeadChecksum, .number (ofNat material.preparedOperationCount),
      textJson material.preparedProjectionChecksum]

/-- The `projectionChecksum` of a receipt; its contract version is 1. -/
def ReceiptMaterial.projectionChecksum (material : ReceiptMaterial) : Checksum :=
  canonicalProjectionChecksum authorityProjectionReceiptDomain material.json

structure ProjectionRequest where
  attachmentOrigins : List AttachmentOrigin
  expectedHead : LedgerHead
  preparedOperationCount : Nat
  preparedProjectionChecksum : Checksum

structure Projection where
  expectedReceipt : Checksum
  request : ProjectionRequest

def authorityProjectionRequest (expectedHead : LedgerHead) (state : GenerationState) : Option Projection := do
  let prepared ← sortedPreparedCheckpointRecords state
  let origins ← state.storages.entries.mapM fun entry => attachmentOriginOf state entry.1 entry.2
  let attachmentOrigins := sortById (·.storageId) origins.reduceOption
  let material : ReceiptMaterial := {
    attachmentOriginCount := attachmentOrigins.length
    attachmentOriginsChecksum := attachmentOriginsChecksum attachmentOrigins
    expectedHeadChecksum := headChecksum expectedHead
    preparedOperationCount := prepared.length
    preparedProjectionChecksum := preparedProjectionChecksum prepared }
  some {
    expectedReceipt := material.projectionChecksum
    request := {
      attachmentOrigins, expectedHead
      preparedOperationCount := material.preparedOperationCount
      preparedProjectionChecksum := material.preparedProjectionChecksum } }

/-- `validateV3AuthorityProjection`, given what `compareProjection` of the authority answers. -/
def validateV3AuthorityProjection (compareProjection : ProjectionRequest → Option (Option Checksum))
    (expectedHead : LedgerHead) (state : GenerationState) : Option Checksum := do
  ensure (expectedHead.contractVersion = .v3 ∧ state.contractVersion = .v3)
  let projection ← authorityProjectionRequest expectedHead state
  let answer ← compareProjection projection.request
  let receipt ← answer
  ensure (receipt = projection.expectedReceipt)
  some projection.expectedReceipt

end PortableCodex.ProviderState
