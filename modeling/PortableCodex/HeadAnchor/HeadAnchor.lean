import PortableCodex.ProviderState.Head

/-!
The PostgreSQL anchor of provider heads.

A row of `filesystem_image_provider_heads` keeps the head of one provider and anchor; no row is the
genesis head. `compareAndAdvance` checks the two heads it is given, and a transaction then inserts or
updates the row and reads it back. A transaction that fails leaves the table as it was.
-/

namespace PortableCodex.HeadAnchor

open Js ProviderState

/-! ### Rows -/

/-- The scope of an anchor. -/
structure Identity where
  providerId : OpaqueId
  anchorId : OpaqueId
deriving DecidableEq

/-- The columns of a row but its identity. -/
structure HeadRow where
  contractVersion : Nat
  anchorRevision : Nat
  generation : Nat
  stateRevision : Nat
  baseHeadChecksum : Option JsString
  checkpointStateRevision : Nat
  checkpointFrameCount : Nat
  checkpointChecksum : Option JsString
  checkpointBytes : Nat
  frameCount : Nat
  lastChecksum : Option JsString
  ledgerBytes : Nat
deriving DecidableEq

def versionNumber : Version → Nat
  | .v2 => 2
  | .v3 => 3

/-- The columns that the `headValues` of a head are cast to. -/
def headValues (head : LedgerHead) : HeadRow where
  contractVersion := versionNumber head.contractVersion
  anchorRevision := head.anchorRevision.val
  generation := head.generation.val
  stateRevision := head.stateRevision.val
  baseHeadChecksum := head.baseHeadChecksum.map (·.val)
  checkpointStateRevision := head.checkpointStateRevision.val
  checkpointFrameCount := head.checkpointFrameCount.val
  checkpointChecksum := head.checkpointChecksum.map (·.val)
  checkpointBytes := head.checkpointBytes.val
  frameCount := head.frameCount.val
  lastChecksum := head.lastChecksum.map (·.val)
  ledgerBytes := head.ledgerBytes.val

/-! ### The constraints of the table -/

/-- `^[A-Za-z0-9]`, nothing outside `[A-Za-z0-9._:-]`, and 1 to 128 octets. -/
def IdFormat (id : JsString) : Prop :=
  1 ≤ byteLength id ∧ byteLength id ≤ 128 ∧ id.head?.any isAlphanumeric = true ∧
    id.all isOpaqueUnit = true

/-- 64 octets, nothing outside `[0-9a-f]`. -/
def ChecksumFormat (checksum : JsString) : Prop :=
  byteLength checksum = 64 ∧ checksum.all isLowerHex = true

instance : DecidablePred IdFormat := fun _ => inferInstanceAs (Decidable (_ ∧ _ ∧ _ ∧ _))

instance : DecidablePred ChecksumFormat := fun _ => inferInstanceAs (Decidable (_ ∧ _))

namespace HeadRow

variable (row : HeadRow)

/-- `filesystem_image_provider_heads_uint64_fields_bounded` -/
def Uint64FieldsBounded : Prop :=
  1 ≤ row.anchorRevision ∧ row.anchorRevision ≤ 18446744073709551615 ∧
    row.generation ≤ 18446744073709551615 ∧ row.stateRevision ≤ 18446744073709551615 ∧
    row.checkpointStateRevision ≤ 18446744073709551615

/-- `filesystem_image_provider_heads_revision_topology` -/
def RevisionTopology : Prop :=
  row.anchorRevision = row.stateRevision + row.generation ∧
    row.stateRevision = row.checkpointStateRevision + row.frameCount

/-- `filesystem_image_provider_heads_checkpoint_frame_count_bounded` and the three like it. -/
def CountsBounded : Prop :=
  row.checkpointFrameCount ≤ 4294967295 ∧ row.checkpointBytes ≤ 9007199254740991 ∧
    row.frameCount ≤ 65535 ∧ row.ledgerBytes ≤ 67108864

/-- `filesystem_image_provider_heads_base_checksum_format` and the two like it; `last_checksum` is not
nullable. -/
def ChecksumFormats : Prop :=
  row.baseHeadChecksum.all (fun checksum => ChecksumFormat checksum) = true ∧
    row.checkpointChecksum.all (fun checksum => ChecksumFormat checksum) = true ∧
    row.lastChecksum.any (fun checksum => ChecksumFormat checksum) = true

/-- `filesystem_image_provider_heads_checkpoint_shape` -/
def CheckpointShape : Prop :=
  (row.generation = 0 ∧ row.baseHeadChecksum = none ∧ row.checkpointStateRevision = 0 ∧
      row.checkpointFrameCount = 0 ∧ row.checkpointChecksum = none ∧ row.checkpointBytes = 0) ∨
    (0 < row.generation ∧ row.baseHeadChecksum ≠ none ∧ row.checkpointChecksum ≠ none ∧
      (2 ≤ row.checkpointFrameCount ∧ row.checkpointFrameCount ≤ 4294967295) ∧
      1 ≤ row.checkpointBytes ∧ row.checkpointBytes ≤ 9007199254740991)

/-- `filesystem_image_provider_heads_active_shape`; a comparison with null is not true. -/
def ActiveShape : Prop :=
  (row.frameCount = 0 ∧ 0 < row.generation ∧ row.ledgerBytes = 0 ∧ row.lastChecksum ≠ none ∧
      row.lastChecksum = row.checkpointChecksum) ∨
    ((1 ≤ row.frameCount ∧ row.frameCount ≤ 65535) ∧ 1 ≤ row.ledgerBytes ∧ row.ledgerBytes ≤ 67108864)

/-- The constraints of the table hold of a row. -/
def Checked (identity : Identity) : Prop :=
  IdFormat identity.providerId.val ∧ IdFormat identity.anchorId.val ∧ row.contractVersion = 2 ∧
    row.Uint64FieldsBounded ∧ row.RevisionTopology ∧ row.CountsBounded ∧ row.ChecksumFormats ∧
    row.CheckpointShape ∧ row.ActiveShape

instance : Decidable row.Uint64FieldsBounded := inferInstanceAs (Decidable (_ ∧ _ ∧ _ ∧ _ ∧ _))

instance : Decidable row.RevisionTopology := inferInstanceAs (Decidable (_ ∧ _))

instance : Decidable row.CountsBounded := inferInstanceAs (Decidable (_ ∧ _ ∧ _ ∧ _))

instance : Decidable row.ChecksumFormats := inferInstanceAs (Decidable (_ ∧ _ ∧ _))

instance : Decidable row.CheckpointShape := inferInstanceAs (Decidable (_ ∨ _))

instance : Decidable row.ActiveShape := inferInstanceAs (Decidable (_ ∨ _))

instance (identity : Identity) : Decidable (row.Checked identity) :=
  inferInstanceAs (Decidable (_ ∧ _ ∧ _ ∧ _ ∧ _ ∧ _ ∧ _ ∧ _ ∧ _))

end HeadRow

/-- `filesystem_image_provider_heads`; the identity is its primary key. -/
abbrev Table := Identity → Option HeadRow

/-! ### Reading a row -/

def headRowKeys : List JsString :=
  [js "provider_id", js "anchor_id", js "contract_version", js "anchor_revision", js "generation",
    js "state_revision", js "base_head_checksum", js "checkpoint_state_revision",
    js "checkpoint_frame_count", js "checkpoint_checksum", js "checkpoint_bytes", js "frame_count",
    js "last_checksum", js "ledger_bytes"]

/-- A row as `HEAD_COLUMNS` returns it: all numbers but the version are texts. -/
def HeadRow.json (identity : Identity) (row : HeadRow) : JsValue :=
  let text (n : Nat) : JsValue := .string (decimal n)
  record headRowKeys
    [textJson identity.providerId, textJson identity.anchorId, .number (ofNat row.contractVersion),
      text row.anchorRevision, text row.generation, text row.stateRevision,
      nullableJson .string row.baseHeadChecksum, text row.checkpointStateRevision,
      text row.checkpointFrameCount, nullableJson .string row.checkpointChecksum,
      text row.checkpointBytes, text row.frameCount, nullableJson .string row.lastChecksum,
      text row.ledgerBytes]

def canonicalStoredNumber (value : JsValue) (maximum : Nat) : Option Nat :=
  match value with
  | .string s =>
      if IsDecimal s ∧ digitsValue s ≤ maximum ∧ digitsValue s ≤ maxSafeInteger then some (digitsValue s)
      else none
  | _ => none

def genesisHead : LedgerHead where
  contractVersion := .v2
  anchorRevision := ⟨0, uint64_zero⟩
  generation := ⟨0, uint64_zero⟩
  stateRevision := ⟨0, uint64_zero⟩
  baseHeadChecksum := none
  checkpointStateRevision := ⟨0, uint64_zero⟩
  checkpointFrameCount := ⟨0, Nat.zero_le _⟩
  checkpointChecksum := none
  checkpointBytes := ⟨0, Nat.zero_le _⟩
  frameCount := ⟨0, Nat.zero_le _⟩
  lastChecksum := none
  ledgerBytes := ⟨0, Nat.zero_le _⟩
  consistent := ⟨le_rfl, rfl, rfl, rfl, ⟨rfl, rfl, rfl, rfl, rfl⟩, rfl, rfl, rfl⟩

def normalizeHeadRow (value : JsValue) (expectedIdentity : Identity) : Option LedgerHead := do
  let [providerId, anchorId, contractVersion, anchorRevision, generation, stateRevision,
    baseHeadChecksum, checkpointStateRevision, checkpointFrameCount, checkpointChecksum,
    checkpointBytes, frameCount, lastChecksum, ledgerBytes] ← exactDataFields value headRowKeys | none
  let providerId ← canonicalOpaqueId providerId
  let anchorId ← canonicalOpaqueId anchorId
  ensure (providerId = expectedIdentity.providerId ∧ anchorId = expectedIdentity.anchorId)
  let checkpointFrameCount ← canonicalStoredNumber checkpointFrameCount maxUint32
  let checkpointBytes ← canonicalStoredNumber checkpointBytes maxSafeInteger
  let frameCount ← canonicalStoredNumber frameCount maxFrameCount
  let ledgerBytes ← canonicalStoredNumber ledgerBytes maxLedgerBytes
  let head ← canonicalLedgerHead (record ledgerHeadKeys
    [contractVersion, anchorRevision, generation, stateRevision, baseHeadChecksum,
      checkpointStateRevision, .number (ofNat checkpointFrameCount), checkpointChecksum,
      .number (ofNat checkpointBytes), .number (ofNat frameCount), lastChecksum,
      .number (ofNat ledgerBytes)])
  ensure (head.contractVersion = .v2 ∧ head ≠ genesisHead)
  some head

/-! ### Advancing -/

/-- The errors of an anchor; a violated constraint is an error of the store. -/
inductive AnchorError where
  | invalidRequest
  | stateInvalid
  | constraintViolated
deriving DecidableEq

def decimalSuccessor (previous next : Uint64) : Prop := next.val = previous.val + 1

instance (previous next : Uint64) : Decidable (decimalSuccessor previous next) :=
  inferInstanceAs (Decidable (_ = _))

def isNormalAppend (expectedHead nextHead : LedgerHead) : Prop :=
  nextHead.contractVersion = expectedHead.contractVersion ∧
    decimalSuccessor expectedHead.anchorRevision nextHead.anchorRevision ∧
    nextHead.generation = expectedHead.generation ∧
    decimalSuccessor expectedHead.stateRevision nextHead.stateRevision ∧
    nextHead.baseHeadChecksum = expectedHead.baseHeadChecksum ∧
    nextHead.checkpointStateRevision = expectedHead.checkpointStateRevision ∧
    nextHead.checkpointFrameCount = expectedHead.checkpointFrameCount ∧
    nextHead.checkpointChecksum = expectedHead.checkpointChecksum ∧
    nextHead.checkpointBytes = expectedHead.checkpointBytes ∧
    nextHead.frameCount.val = expectedHead.frameCount.val + 1 ∧
    nextHead.frameCount.val ≤ maxFrameCount ∧ nextHead.lastChecksum ≠ none ∧
    expectedHead.ledgerBytes.val < nextHead.ledgerBytes.val

def isPureRotation (expectedHead nextHead : LedgerHead) : Prop :=
  nextHead.contractVersion = expectedHead.contractVersion ∧
    decimalSuccessor expectedHead.anchorRevision nextHead.anchorRevision ∧
    decimalSuccessor expectedHead.generation nextHead.generation ∧
    nextHead.stateRevision = expectedHead.stateRevision ∧ expectedHead.frameCount.val ≠ 0 ∧
    expectedHead.ledgerBytes.val ≠ 0 ∧ nextHead.checkpointStateRevision = expectedHead.stateRevision ∧
    2 ≤ nextHead.checkpointFrameCount.val ∧ nextHead.checkpointFrameCount.val ≤ maxUint32 ∧
    nextHead.checkpointChecksum ≠ none ∧ 0 < nextHead.checkpointBytes.val ∧
    nextHead.checkpointBytes.val ≤ maxSafeInteger ∧ nextHead.frameCount.val = 0 ∧
    nextHead.lastChecksum = nextHead.checkpointChecksum ∧ nextHead.ledgerBytes.val = 0 ∧
    nextHead.baseHeadChecksum = some (headChecksum expectedHead)

instance (expectedHead nextHead : LedgerHead) : Decidable (isNormalAppend expectedHead nextHead) :=
  inferInstanceAs (Decidable (_ ∧ _ ∧ _ ∧ _ ∧ _ ∧ _ ∧ _ ∧ _ ∧ _ ∧ _ ∧ _ ∧ _ ∧ _))

instance (expectedHead nextHead : LedgerHead) : Decidable (isPureRotation expectedHead nextHead) :=
  inferInstanceAs (Decidable (_ ∧ _ ∧ _ ∧ _ ∧ _ ∧ _ ∧ _ ∧ _ ∧ _ ∧ _ ∧ _ ∧ _ ∧ _ ∧ _ ∧ _ ∧ _))

/-- The rows that a statement leaves of a table, and the row it returns. -/
structure Statement where
  table : Table
  returned : Option HeadRow

def Table.write (table : Table) (identity : Identity) (row : HeadRow) : Except AnchorError Statement :=
  if row.Checked identity then
    .ok { table := Function.update table identity (some row), returned := some row }
  else .error .constraintViolated

/-- `INSERT_QUERY`: a conflict does nothing. -/
def insertQuery (table : Table) (identity : Identity) (next : HeadRow) : Except AnchorError Statement :=
  match table identity with
  | some _ => .ok { table, returned := none }
  | none => table.write identity next

/-- `UPDATE_QUERY`: the row has to be the expected one in every column. -/
def updateQuery (table : Table) (identity : Identity) (next expected : HeadRow) :
    Except AnchorError Statement :=
  if table identity = some expected then table.write identity next
  else .ok { table, returned := none }

/-- `fail` with a code unless there is a value. -/
def orFail {α : Type} (code : AnchorError) : Option α → Except AnchorError α
  | none => .error code
  | some a => .ok a

def compareAndAdvanceDurableHead (table : Table) (identity : Identity) (expectedHead nextHead : LedgerHead) :
    Except AnchorError (Table × Bool) := do
  let result ←
    if expectedHead = genesisHead then insertQuery table identity (headValues nextHead)
    else updateQuery table identity (headValues nextHead) (headValues expectedHead)
  match result.returned with
  | none => .ok (result.table, false)
  | some row => do
      let stored ← orFail .stateInvalid (normalizeHeadRow (row.json identity) identity)
      orFail .stateInvalid (ensure (stored = nextHead))
      .ok (result.table, true)

def readDurableHead (table : Table) (identity : Identity) : Except AnchorError LedgerHead :=
  match table identity with
  | none => .ok genesisHead
  | some row => orFail .stateInvalid (normalizeHeadRow (row.json identity) identity)

def advanceKeys : List JsString := [js "expectedHead", js "nextHead"]

/-- The request checks of `compareAndAdvance`. -/
def readAdvance (advanceArgs : List JsValue) : Option (LedgerHead × LedgerHead) := do
  let [request] := advanceArgs | none
  let [expectedHead, nextHead] ← exactDataFields request advanceKeys | none
  let expectedHead ← canonicalLedgerHead expectedHead
  let nextHead ← canonicalLedgerHead nextHead
  ensure (expectedHead.contractVersion = .v2 ∧ nextHead.contractVersion = .v2 ∧
    (isNormalAppend expectedHead nextHead ∨ isPureRotation expectedHead nextHead))
  some (expectedHead, nextHead)

def compareAndAdvance (table : Table) (identity : Identity) (advanceArgs : List JsValue) :
    Except AnchorError (Table × Bool) := do
  let (expectedHead, nextHead) ← orFail .invalidRequest (readAdvance advanceArgs)
  compareAndAdvanceDurableHead table identity expectedHead nextHead

/-! ### Calls -/

/-- One call by some caller; its transaction may be rolled back. -/
structure Call where
  identity : Identity
  advanceArgs : List JsValue
  committed : Bool

/-- The table after a call; a call that throws is rolled back. -/
def Table.after (table : Table) (call : Call) : Table :=
  match compareAndAdvance table call.identity call.advanceArgs with
  | .ok (next, _) => if call.committed then next else table
  | .error _ => table

/-- The table that calls have made of an empty one. -/
def tableOf (calls : List Call) : Table := calls.foldl Table.after fun _ => none

end PortableCodex.HeadAnchor
