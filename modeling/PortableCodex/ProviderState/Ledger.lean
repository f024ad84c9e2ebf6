import PortableCodex.ProviderState.FrameSize
import PortableCodex.ProviderState.RotationLaws

/-!
How the provider moves its head: `appendDeltaEvent`, `rotateGeneration` and the `append` of `#run`,
which rotates first when the frame limit, the ledger limit or a watermark asks for it.

Files, locks and the anchor are left out here; what remains is the ledger as bytes, the heads that
are proposed to the anchor and the state that is read back. `advances` lists the proposals of one
`append`.
-/

namespace PortableCodex.ProviderState

open Js

/-- The cache of a provider, with the bytes of the active ledger. -/
structure GenerationCache where
  head : LedgerHead
  ledger : Bytes
  checkpointState : GenerationState
  state : GenerationState

/-! ### Reading the active ledger -/

/-- Where the frame loop of `parseActiveLedger` stands. -/
structure ActiveReader where
  state : GenerationState
  checksum : Option Checksum
  offset : Nat

/-- The frame loop of `parseActiveLedger`. -/
def readActiveFrames (version : Version) (bytes : Bytes) :
    Nat → Nat → ActiveReader → Option ActiveReader
  | 0, _, reader => some reader
  | count + 1, sequence, reader => do
      let parsed : Envelope DeltaFrame ← parseEnvelopeFromBuffer version bytes reader.offset sequence
      ensure (parsed.frame.previousChecksum = reader.checksum)
      let (_, state) ← applyDeltaFrame reader.state parsed.frame parsed.checksum sequence
      readActiveFrames version bytes count (sequence + 1)
        { state, checksum := some parsed.checksum, offset := parsed.frameEnd }

/-- `parseActiveLedger` of a ledger without a tail: an `append` refuses any other. -/
def parseActiveLedger (bytes : Bytes) (head : LedgerHead) (checkpointState : GenerationState) :
    Option GenerationState := do
  ensure (checkpointState.contractVersion = head.contractVersion)
  ensure (bytes.length ≤ maxLedgerBytes ∧ bytes.length = head.ledgerBytes.val)
  let reader ← readActiveFrames head.contractVersion bytes head.frameCount.val 1
    { state := checkpointState, checksum := head.checkpointChecksum, offset := 0 }
  ensure (reader.offset = head.ledgerBytes.val ∧ reader.checksum = head.lastChecksum ∧
    reader.state.stateRevision = head.stateRevision)
  some reader.state

/-! ### Appending -/

/-- What `prepareOperation` and `commitOperation` append. -/
inductive DeltaEvent where
  | prepared (kind : Kind) (operationId : OpaqueId) (request : CanonicalObject) (storageId : OpaqueId)
      (storageStateBefore : Option StorageState)
  | committed (expectedStorage : Option ExpectedStorage) (operationId : OpaqueId)
      (preparedChecksum : Option Checksum) (result : CanonicalObject) (storageState : StorageState)

/-- The frame of an event: the event and its place in the ledger. -/
def DeltaEvent.frame (contractVersion : Version) (previousChecksum : Option Checksum) (sequence : Sequence)
    (stateRevision : PositiveUint64) : DeltaEvent → DeltaFrame
  | .prepared kind operationId request storageId storageStateBefore =>
      .prepared { contractVersion, kind, operationId, previousChecksum, request, sequence, stateRevision,
                  storageId, storageStateBefore }
  | .committed expectedStorage operationId preparedChecksum result storageState =>
      .committed { contractVersion, expectedStorage, operationId, preparedChecksum, previousChecksum,
                   result, sequence, stateRevision, storageState }

/-- `incrementNonnegativeUint64` as a revision. -/
def nextRevision (revision : Uint64) : Option PositiveUint64 := do
  let next ← incrementNonnegativeUint64 revision.val
  if bound : 0 < next ∧ next < 2 ^ 64 then some ⟨next, bound⟩ else none

def encodeDeltaEvent (head : LedgerHead) (event : DeltaEvent) : Option (Encoded DeltaFrame) := do
  let sequence := head.frameCount.val + 1
  if inside : 1 ≤ sequence ∧ sequence ≤ maxFrameCount then
    let stateRevision ← nextRevision head.stateRevision
    let frame ← normalizeDeltaFrame head.contractVersion
      (event.frame head.contractVersion head.lastChecksum ⟨sequence, inside⟩ stateRevision).json
    encodeCanonicalFrame frame
  else none

/-- The head behind an appended frame. -/
def appendedHead (expectedHead : LedgerHead) (encoded : Encoded DeltaFrame) : Option LedgerHead := do
  let anchorRevision ← incrementNonnegativeUint64 expectedHead.anchorRevision.val
  let ledgerBytes := expectedHead.ledgerBytes.val + encoded.bytes.length
  if bound : anchorRevision < 2 ^ 64 ∧ ledgerBytes ≤ maxLedgerBytes then
    ledgerHead { expectedHead.toHeadRecord with
      anchorRevision := ⟨anchorRevision, bound.1⟩
      stateRevision := revisionOf encoded.frame.stateRevision
      frameCount := ⟨encoded.frame.sequence.val, encoded.frame.sequence.property.2⟩
      lastChecksum := some encoded.checksum
      ledgerBytes := ⟨ledgerBytes, bound.2⟩ }
  else none

def appendDeltaEvent (cache : GenerationCache) (event : DeltaEvent) : Option GenerationCache := do
  let encoded ← encodeDeltaEvent cache.head event
  ensure (cache.head.ledgerBytes.val + encoded.bytes.length ≤ maxLedgerBytes)
  let readback := cache.ledger ++ encoded.bytes
  let nextHead ← appendedHead cache.head encoded
  let state ← parseActiveLedger readback nextHead cache.checkpointState
  some { cache with head := nextHead, ledger := readback, state }

/-! ### Rotating -/

structure RotationPolicy where
  activeFrameCountWatermark : Nat
  activeLedgerBytesWatermark : Nat

def eventRequiresRotation (head : LedgerHead) (encodedBytes : Nat) (rotationPolicy : RotationPolicy) : Bool :=
  if maxFrameCount ≤ head.frameCount.val ∨ maxLedgerBytes < head.ledgerBytes.val + encodedBytes then true
  else if head.frameCount.val = 0 then false
  else rotationPolicy.activeFrameCountWatermark < head.frameCount.val + 1 ∨
    rotationPolicy.activeLedgerBytesWatermark < head.ledgerBytes.val + encodedBytes

/-- The next generation starts with an empty ledger. -/
def rotateGeneration (cache : GenerationCache) : Option GenerationCache := do
  let rotated ← rotation cache.head cache.state
  some { head := rotated.head, ledger := [], checkpointState := rotated.state, state := rotated.state }

/-- Whether `append` rotates first; it fails if the preview of the event cannot be encoded. -/
def rotatesFirst (rotationPolicy : RotationPolicy) (cache : GenerationCache) (event : DeltaEvent) :
    Option Bool := do
  if maxFrameCount ≤ cache.head.frameCount.val then some true
  else
    let preview ← encodeDeltaEvent cache.head event
    some (eventRequiresRotation cache.head preview.bytes.length rotationPolicy)

/-- The advance of an `appendDeltaEvent`, if it comes to one. -/
def appendAdvance (cache : GenerationCache) (event : DeltaEvent) :
    List (GenerationCache × GenerationCache) :=
  match appendDeltaEvent cache event with
  | none => []
  | some next => [(cache, next)]

/-- The advances that `append` of `#run` proposes to the anchor, in their order. -/
def advances (rotationPolicy : RotationPolicy) (cache : GenerationCache) (event : DeltaEvent) :
    List (GenerationCache × GenerationCache) :=
  match rotatesFirst rotationPolicy cache event with
  | none => []
  | some false => appendAdvance cache event
  | some true =>
      match rotateGeneration cache with
      | none => []
      | some rotated => (cache, rotated) :: appendAdvance rotated event

/-- A provider that was never written to. -/
def genesisCache (version : Version) : GenerationCache where
  head := {
    contractVersion := version
    anchorRevision := ⟨0, uint64_zero⟩
    generation := ⟨0, uint64_zero⟩
    stateRevision := ⟨0, uint64_zero⟩
    baseHeadChecksum := none
    checkpointStateRevision := ⟨0, uint64_zero⟩
    checkpointFrameCount := ⟨0, Nat.zero_le _⟩
    checkpointChecksum := none
    checkpointBytes := ⟨0, Nat.zero_le _⟩
    frameCount := ⟨0, Nat.zero_le _⟩
    lastChecksum := none
    ledgerBytes := ⟨0, Nat.zero_le _⟩
    consistent := ⟨le_rfl, rfl, rfl, rfl, ⟨rfl, rfl, rfl, rfl, rfl⟩, rfl, rfl, rfl⟩ }
  ledger := []
  checkpointState := emptyGenerationState ⟨0, uint64_zero⟩ version
  state := emptyGenerationState ⟨0, uint64_zero⟩ version

/-- The caches that appends and rotations lead to, under any policies. -/
inductive ReachableCache (version : Version) : GenerationCache → Prop where
  | genesis : ReachableCache version (genesisCache version)
  | advanced {policy cache event before next} : ReachableCache version cache →
      (before, next) ∈ advances policy cache event → ReachableCache version next

end PortableCodex.ProviderState
