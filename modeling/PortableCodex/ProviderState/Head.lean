import PortableCodex.ProviderState.Codec

/-!
The ledger head: the record that the external anchor holds.

A head names a generation, the checkpoint it starts from and how far its ledger is committed.
`LedgerHead` carries the cross-field checks of `canonicalLedgerHead` as its field `consistent`.
-/

namespace PortableCodex.ProviderState

open Js

def maxSafeInteger : Nat := 2 ^ 53 - 1

def maxLedgerBytes : Nat := 64 * 1024 * 1024

/-- A size that the code keeps in a safe integer. -/
abbrev SafeSize := { n : Nat // n ≤ maxSafeInteger }

abbrev FrameCount := { n : Nat // n ≤ maxFrameCount }

abbrev LedgerBytes := { n : Nat // n ≤ maxLedgerBytes }

def canonicalSafeSize : JsValue → Option SafeSize := checkedNumber _
def canonicalFrameCount : JsValue → Option FrameCount := checkedNumber _
def canonicalLedgerBytes : JsValue → Option LedgerBytes := checkedNumber _

theorem canonicalSafeSize_reads : Reads canonicalSafeSize numberJson :=
  checkedNumber_reads fun _ h => lt_of_le_of_lt h (by decide)

theorem canonicalFrameCount_reads : Reads canonicalFrameCount numberJson :=
  checkedNumber_reads fun _ h => lt_of_le_of_lt h (by decide)

theorem canonicalLedgerBytes_reads : Reads canonicalLedgerBytes numberJson :=
  checkedNumber_reads fun _ h => lt_of_le_of_lt h (by decide)

/-- The fields of a head, each checked by itself. -/
structure HeadRecord where
  contractVersion : Version
  anchorRevision : Uint64
  generation : Uint64
  stateRevision : Uint64
  baseHeadChecksum : Option Checksum
  checkpointStateRevision : Uint64
  checkpointFrameCount : Count
  checkpointChecksum : Option Checksum
  checkpointBytes : SafeSize
  frameCount : FrameCount
  lastChecksum : Option Checksum
  ledgerBytes : LedgerBytes
deriving DecidableEq

namespace HeadRecord

variable (head : HeadRecord)

/-- Generation 0 has no checkpoint. -/
def NoCheckpoint : Prop :=
  head.baseHeadChecksum = none ∧ head.checkpointStateRevision.val = 0 ∧
    head.checkpointFrameCount.val = 0 ∧ head.checkpointChecksum = none ∧ head.checkpointBytes.val = 0

/-- The checks of a head of the empty state. -/
def IsGenesis : Prop :=
  head.anchorRevision.val = 0 ∧ head.NoCheckpoint ∧ head.frameCount.val = 0 ∧
    head.lastChecksum = none ∧ head.ledgerBytes.val = 0

/-- The checks of a later head of generation 0. -/
def IsFirstGeneration : Prop :=
  head.anchorRevision.val = head.stateRevision.val ∧ head.NoCheckpoint ∧ 0 < head.frameCount.val ∧
    head.lastChecksum ≠ none ∧ 0 < head.ledgerBytes.val

/-- The checks of a head of a generation that starts from a checkpoint. -/
def IsLaterGeneration : Prop :=
  head.baseHeadChecksum ≠ none ∧ 2 ≤ head.checkpointFrameCount.val ∧ head.checkpointChecksum ≠ none ∧
    0 < head.checkpointBytes.val ∧ head.lastChecksum ≠ none ∧
    if head.frameCount.val = 0 then
      head.ledgerBytes.val = 0 ∧ head.lastChecksum = head.checkpointChecksum
    else 0 < head.ledgerBytes.val

/-- The cross-field checks of `canonicalLedgerHead`. -/
def Consistent : Prop :=
  head.checkpointStateRevision.val ≤ head.stateRevision.val ∧
    head.anchorRevision.val = head.generation.val + head.stateRevision.val ∧
    head.stateRevision.val - head.checkpointStateRevision.val = head.frameCount.val ∧
    if head.generation.val = 0 then
      if head.stateRevision.val = 0 then head.IsGenesis else head.IsFirstGeneration
    else head.IsLaterGeneration

instance : Decidable head.NoCheckpoint := inferInstanceAs (Decidable (_ ∧ _ ∧ _ ∧ _ ∧ _))

instance : Decidable head.IsGenesis := inferInstanceAs (Decidable (_ ∧ _ ∧ _ ∧ _ ∧ _))

instance : Decidable head.IsFirstGeneration := inferInstanceAs (Decidable (_ ∧ _ ∧ _ ∧ _ ∧ _))

instance : Decidable head.IsLaterGeneration := inferInstanceAs (Decidable (_ ∧ _ ∧ _ ∧ _ ∧ _ ∧ _))

instance : Decidable head.Consistent := inferInstanceAs (Decidable (_ ∧ _ ∧ _ ∧ _))

end HeadRecord

/-- A head that `canonicalLedgerHead` accepts. -/
structure LedgerHead extends HeadRecord where
  consistent : toHeadRecord.Consistent
deriving DecidableEq

def ledgerHeadKeys : List JsString :=
  [js "contractVersion", js "anchorRevision", js "generation", js "stateRevision", js "baseHeadChecksum",
    js "checkpointStateRevision", js "checkpointFrameCount", js "checkpointChecksum",
    js "checkpointBytes", js "frameCount", js "lastChecksum", js "ledgerBytes"]

def LedgerHead.json (head : LedgerHead) : JsValue :=
  record ledgerHeadKeys
    [head.contractVersion.json, uint64Json head.anchorRevision, uint64Json head.generation,
      uint64Json head.stateRevision, nullableJson textJson head.baseHeadChecksum,
      uint64Json head.checkpointStateRevision, numberJson head.checkpointFrameCount,
      nullableJson textJson head.checkpointChecksum, numberJson head.checkpointBytes,
      numberJson head.frameCount, nullableJson textJson head.lastChecksum, numberJson head.ledgerBytes]

/-- `stateFormatForContractVersion` -/
def stateFormatForContractVersion (value : JsValue) : Option Version :=
  [Version.v2, Version.v3].find? fun version => isVersion version value

/-- The head of checked fields. -/
def ledgerHead (head : HeadRecord) : Option LedgerHead :=
  if consistent : head.Consistent then some { toHeadRecord := head, consistent } else none

def canonicalLedgerHead (value : JsValue) : Option LedgerHead := do
  let [contractVersion, anchorRevision, generation, stateRevision, baseHeadChecksum,
    checkpointStateRevision, checkpointFrameCount, checkpointChecksum, checkpointBytes, frameCount,
    lastChecksum, ledgerBytes] ← exactDataFields value ledgerHeadKeys | none
  let contractVersion ← stateFormatForContractVersion contractVersion
  let checkpointFrameCount ← canonicalCount checkpointFrameCount
  let checkpointBytes ← canonicalSafeSize checkpointBytes
  let frameCount ← canonicalFrameCount frameCount
  let ledgerBytes ← canonicalLedgerBytes ledgerBytes
  let anchorRevision ← canonicalUint64 anchorRevision
  let generation ← canonicalUint64 generation
  let stateRevision ← canonicalUint64 stateRevision
  let checkpointStateRevision ← canonicalUint64 checkpointStateRevision
  let baseHeadChecksum ← canonicalPreviousChecksum baseHeadChecksum
  let checkpointChecksum ← canonicalPreviousChecksum checkpointChecksum
  let lastChecksum ← canonicalPreviousChecksum lastChecksum
  ledgerHead { contractVersion, anchorRevision, generation, stateRevision, baseHeadChecksum,
               checkpointStateRevision, checkpointFrameCount, checkpointChecksum, checkpointBytes,
               frameCount, lastChecksum, ledgerBytes }

theorem stateFormatForContractVersion_reads : Reads stateFormatForContractVersion Version.json := by
  intro form version
  have same := isVersion_json form version
  cases version with
  | v2 => rw [stateFormatForContractVersion, List.find?_cons_of_pos (by simpa using same)]
  | v3 =>
      have other : ¬ isVersion .v2 (form.of Version.v3.json) := by
        intro both
        rw [isVersion, same] at both
        cases both
      rw [stateFormatForContractVersion, List.find?_cons_of_neg (by simpa using other),
        List.find?_cons_of_pos (by simpa using same)]

theorem canonicalLedgerHead_reads : Reads canonicalLedgerHead LedgerHead.json := by
  intro form head
  refine read_then (exactDataFields_record rfl (by decide)) ?_
  refine read_then (stateFormatForContractVersion_reads form head.contractVersion) ?_
  refine read_then (canonicalCount_reads form head.checkpointFrameCount) ?_
  refine read_then (canonicalSafeSize_reads form head.checkpointBytes) ?_
  refine read_then (canonicalFrameCount_reads form head.frameCount) ?_
  refine read_then (canonicalLedgerBytes_reads form head.ledgerBytes) ?_
  refine read_then (canonicalUint64_reads form head.anchorRevision) ?_
  refine read_then (canonicalUint64_reads form head.generation) ?_
  refine read_then (canonicalUint64_reads form head.stateRevision) ?_
  refine read_then (canonicalUint64_reads form head.checkpointStateRevision) ?_
  refine read_then (canonicalPreviousChecksum_reads form head.baseHeadChecksum) ?_
  refine read_then (canonicalPreviousChecksum_reads form head.checkpointChecksum) ?_
  refine read_then (canonicalPreviousChecksum_reads form head.lastChecksum) ?_
  exact dif_pos head.consistent

/-- `format.headDomain` -/
def Version.headDomain : Version → Bytes
  | .v2 => domain "portable-codex/filesystem-image-provider-state/head/v2"
  | .v3 => domain "portable-codex/filesystem-image-provider-state/head/v3"

/-- `headChecksum` -/
def headChecksum (head : LedgerHead) : Checksum :=
  hexChecksum (head.contractVersion.headDomain ++ encodeUtf8 (canonicalString head.json))

end PortableCodex.ProviderState
