import PortableCodex.Js.Date
import PortableCodex.ProviderState.Frame

/-!
The records of the session storage contracts: leases and attachments.

A `LeaseGrant` and a `SessionAttachment` hold the checks of `assertLeaseGrant` and
`assertSessionAttachment`; their fixed fields (the contract version, the kind and the mode) are
checked by the readers and not kept.
-/

namespace PortableCodex.Contracts

open Js ProviderState

def storageContractVersion : Nat := 1

/-- `isCanonicalUuid` -/
def IsUuid (s : JsString) : Prop :=
  s.length = 36 ∧
    (∀ entry ∈ s.zipIdx, if entry.2 = 8 ∨ entry.2 = 13 ∨ entry.2 = 18 ∨ entry.2 = 23 then entry.1 = 45
      else isLowerHex entry.1 = true) ∧
    s[14]?.all (fun version => 49 ≤ version.toNat ∧ version.toNat ≤ 56) = true ∧
    s[19]?.all (fun variant => variant = 56 ∨ variant = 57 ∨ variant = 97 ∨ variant = 98) = true

instance : DecidablePred IsUuid := fun _ => inferInstanceAs (Decidable (_ ∧ _ ∧ _ ∧ _))

abbrev Uuid := { s : JsString // IsUuid s }

def uuid : JsValue → Option Uuid := checkedText IsUuid

abbrev IsoTimestamp := { s : JsString // IsIsoTimestamp s }

def isoTimestamp : JsValue → Option IsoTimestamp := checkedText IsIsoTimestamp

/-- `parseFencingEpochForRecord`: a positive decimal text of an unsigned integer. -/
def fencingEpoch : JsValue → Option PositiveUint64 := canonicalPositiveUint64

/-- `value.contractVersion === STORAGE_CONTRACT_VERSION` -/
def isContractVersion (value : JsValue) : Prop := safeInteger value = some storageContractVersion

instance (value : JsValue) : Decidable (isContractVersion value) := inferInstanceAs (Decidable (_ = _))

structure LeaseGrant where
  expiresAt : IsoTimestamp
  fencingEpoch : PositiveUint64
  holderId : OpaqueId
  leaseId : OpaqueId
  sessionId : Uuid
deriving DecidableEq

def leaseGrantKeys : List JsString :=
  [js "contractVersion", js "expiresAt", js "fencingEpoch", js "holderId", js "leaseId", js "sessionId"]

/-- `assertLeaseGrant` -/
def assertLeaseGrant (value : JsValue) : Option LeaseGrant := do
  let [version, expires, epoch, holder, lease, session] ← exactDataFields value leaseGrantKeys | none
  ensure (isContractVersion version)
  let sessionId ← uuid session
  let leaseId ← canonicalOpaqueId lease
  let holderId ← canonicalOpaqueId holder
  let fencingEpoch ← fencingEpoch epoch
  let expiresAt ← isoTimestamp expires
  some { expiresAt, fencingEpoch, holderId, leaseId, sessionId }

structure SessionAttachment where
  attachmentId : OpaqueId
  backendId : OpaqueId
  fencingEpoch : PositiveUint64
  holderId : OpaqueId
  leaseId : OpaqueId
  operationId : OpaqueId
  proofId : OpaqueId
  rootPath : AbsolutePath
  sessionId : Uuid
  storageId : OpaqueId
deriving DecidableEq

def sessionAttachmentKeys : List JsString :=
  [js "attachmentId", js "backendId", js "contractVersion", js "fencingEpoch", js "holderId", js "kind",
    js "leaseId", js "mode", js "operationId", js "proofId", js "rootPath", js "sessionId", js "storageId"]

/-- `assertSessionAttachment` -/
def assertSessionAttachment (value : JsValue) : Option SessionAttachment := do
  let [attachment, backend, version, epoch, holder, kind, lease, mode, operation, proof, root, session,
    storage] ← exactDataFields value sessionAttachmentKeys | none
  ensure (isContractVersion version)
  let backendId ← canonicalOpaqueId backend
  let storageId ← canonicalOpaqueId storage
  let sessionId ← uuid session
  let attachmentId ← canonicalOpaqueId attachment
  let leaseId ← canonicalOpaqueId lease
  let holderId ← canonicalOpaqueId holder
  let operationId ← canonicalOpaqueId operation
  let proofId ← canonicalOpaqueId proof
  let fencingEpoch ← fencingEpoch epoch
  ensure (isText (js "directory") kind)
  let rootPath ← canonicalAbsolutePath root
  ensure (isText (js "read-write") mode)
  some { attachmentId, backendId, fencingEpoch, holderId, leaseId, operationId, proofId, rootPath, sessionId,
         storageId }

end PortableCodex.Contracts
