import PortableCodex.ProviderState.LedgerLaws

/-!
The bytes behind the anchored ones.

An append writes its frame before it moves the anchor, so a crash leaves the anchored ledger
followed by the first bytes of a frame. `parseActiveLedgerWithTail` is `parseActiveLedger` of a
ledger with such a tail: it reads the anchored frames, lets `validateUnanchoredDeltaTail` decide
whether what follows may be cut off, and says from where.

`parseActiveLedger_eq_some_iff` connects it to the reader of a ledger without a tail.
-/

namespace PortableCodex.ProviderState

open Js

/-- `buffer.indexOf(pattern, start)`: where the pattern first begins, from the start on. -/
def bufferIndexOf (bytes pattern : Bytes) (start : Nat) : Option Nat :=
  (List.range' start (bytes.length - start)).find? fun place =>
    subarray bytes place (place + pattern.length) = pattern

def hasLaterSentinel (bytes : Bytes) (start expectedFooterStart : Nat) : Bool :=
  if (bufferIndexOf bytes frameMagic start).isSome then true
  else
    match bufferIndexOf bytes frameEndMagic start with
    | none => false
    | some laterFooter => laterFooter ≠ expectedFooterStart

/-- What `validateUnanchoredDeltaTail` asks of a tail that holds a whole frame. -/
def validateCompleteTail (bytes : Bytes) (offset sequence frameEnd : Nat) (head : LedgerHead)
    (state : GenerationState) : Option Unit := do
  ensure (frameEnd = bytes.length)
  let parsed : Envelope DeltaFrame ← parseEnvelopeFromBuffer head.contractVersion bytes offset sequence
  ensure (parsed.frame.previousChecksum = head.lastChecksum)
  let _ ← applyDeltaFrame state parsed.frame parsed.checksum sequence
  some ()

/-- What it asks of a tail that ends inside the footer. -/
def validatePayloadTail (bytes : Bytes) (offset payloadLength sequence : Nat) (head : LedgerHead)
    (state : GenerationState) : Option Unit := do
  let payloadStart := offset + frameHeaderBytes
  let payload := subarray bytes payloadStart (payloadStart + payloadLength)
  let expectedChecksum := subarray bytes (offset + frameMagic.length + 8) (offset + frameHeaderBytes)
  let checksum := frameChecksum payload payloadLength sequence head.contractVersion
  ensure (expectedChecksum = checksum)
  let frame : DeltaFrame ← parseCanonicalPayload head.contractVersion payload
  ensure (frame.sequence.val = sequence ∧ frame.previousChecksum = head.lastChecksum)
  let _ ← applyDeltaFrame state frame
    (frameChecksumText payload payloadLength sequence head.contractVersion) sequence
  some ()

/-- `validateUnanchoredDeltaTail` of a tail that holds a whole header. -/
def validateHeaderTail (bytes : Bytes) (offset : Nat) (head : LedgerHead) (state : GenerationState) :
    Option Unit := do
  ensure (subarray bytes offset (offset + frameMagic.length) = frameMagic)
  let payloadLength := readUInt32BE bytes (offset + frameMagic.length)
  let sequence := readUInt32BE bytes (offset + frameMagic.length + 4)
  ensure (0 < payloadLength ∧ payloadLength ≤ maxFramePayloadBytes ∧
    sequence = head.frameCount.val + 1 ∧ sequence ≤ maxFrameCount)
  let payloadStart := offset + frameHeaderBytes
  let footerStart := payloadStart + payloadLength
  let frameEnd := footerStart + frameFooterBytes
  if frameEnd ≤ bytes.length then validateCompleteTail bytes offset sequence frameEnd head state
  else
    ensure (hasLaterSentinel bytes payloadStart footerStart = false)
    if footerStart ≤ bytes.length then validatePayloadTail bytes offset payloadLength sequence head state
    else some ()

def validateUnanchoredDeltaTail (bytes : Bytes) (offset : Nat) (head : LedgerHead)
    (state : GenerationState) : Option Unit := do
  let remaining := bytes.length - offset
  ensure (0 < remaining)
  if remaining < frameHeaderBytes then
    let prefixLength := min remaining frameMagic.length
    ensure (subarray bytes offset (offset + prefixLength) = subarray frameMagic 0 prefixLength)
  else validateHeaderTail bytes offset head state

/-- The frame loop of `parseActiveLedger`, with the record that was applied last. -/
def readAnchoredFrames (version : Version) (bytes : Bytes) :
    Nat → Nat → ActiveReader → Option Operation → Option (ActiveReader × Option Operation)
  | 0, _, reader, lastAppliedRecord => some (reader, lastAppliedRecord)
  | count + 1, sequence, reader, _ => do
      let parsed : Envelope DeltaFrame ← parseEnvelopeFromBuffer version bytes reader.offset sequence
      ensure (parsed.frame.previousChecksum = reader.checksum)
      let (record, state) ← applyDeltaFrame reader.state parsed.frame parsed.checksum sequence
      readAnchoredFrames version bytes count (sequence + 1)
        { state, checksum := some parsed.checksum, offset := parsed.frameEnd } (some record)

/-- What `parseActiveLedger` returns. -/
structure ActiveLedger where
  lastAppliedRecord : Option Operation
  state : GenerationState
  truncateOffset : Option Nat

/-- `parseActiveLedger` -/
def parseActiveLedgerWithTail (bytes : Bytes) (head : LedgerHead) (checkpointState : GenerationState) :
    Option ActiveLedger := do
  ensure (checkpointState.contractVersion = head.contractVersion)
  ensure (bytes.length ≤ maxLedgerBytes)
  ensure (head.ledgerBytes.val ≤ bytes.length)
  let (reader, lastAppliedRecord) ← readAnchoredFrames head.contractVersion
    (subarray bytes 0 head.ledgerBytes.val) head.frameCount.val 1
    { state := checkpointState, checksum := head.checkpointChecksum, offset := 0 } none
  ensure (reader.offset = head.ledgerBytes.val ∧ reader.checksum = head.lastChecksum ∧
    reader.state.stateRevision = head.stateRevision)
  if bytes.length = head.ledgerBytes.val then
    some { lastAppliedRecord, state := reader.state, truncateOffset := none }
  else
    validateUnanchoredDeltaTail bytes head.ledgerBytes.val head reader.state
    some { lastAppliedRecord, state := reader.state, truncateOffset := some head.ledgerBytes.val }

/-! ### Without a tail -/

theorem readAnchoredFrames_fst (version : Version) (bytes : Bytes) (count sequence : Nat)
    (reader : ActiveReader) (lastAppliedRecord : Option Operation) :
    (readAnchoredFrames version bytes count sequence reader lastAppliedRecord).map Prod.fst =
      readActiveFrames version bytes count sequence reader := by
  induction count generalizing sequence reader lastAppliedRecord with
  | zero => rfl
  | succ count ih =>
    rw [readAnchoredFrames, readActiveFrames]
    simp only [Option.bind_eq_bind, Option.map_bind, Function.comp_def]
    refine Option.bind_congr fun parsed _ => Option.bind_congr fun _ _ => Option.bind_congr fun applied _ => ?_
    exact ih _ _ _

/-- What the reader returns for a ledger, with or without a tail. -/
theorem parseActiveLedgerWithTail_eq_some_iff {bytes : Bytes} {head : LedgerHead}
    {checkpointState : GenerationState} {ledger : ActiveLedger} :
    parseActiveLedgerWithTail bytes head checkpointState = some ledger ↔
      checkpointState.contractVersion = head.contractVersion ∧ bytes.length ≤ maxLedgerBytes ∧
      head.ledgerBytes.val ≤ bytes.length ∧
      ∃ reader, readAnchoredFrames head.contractVersion (subarray bytes 0 head.ledgerBytes.val)
          head.frameCount.val 1 { state := checkpointState, checksum := head.checkpointChecksum, offset := 0 }
          none = some (reader, ledger.lastAppliedRecord) ∧
        (reader.offset = head.ledgerBytes.val ∧ reader.checksum = head.lastChecksum ∧
          reader.state.stateRevision = head.stateRevision) ∧
        reader.state = ledger.state ∧
        (bytes.length = head.ledgerBytes.val ∧ ledger.truncateOffset = none ∨
          bytes.length ≠ head.ledgerBytes.val ∧ ledger.truncateOffset = some head.ledgerBytes.val ∧
          validateUnanchoredDeltaTail bytes head.ledgerBytes.val head ledger.state = some ()) := by
  obtain ⟨record, state, truncateOffset⟩ := ledger
  simp only [parseActiveLedgerWithTail, Option.bind_eq_bind, Option.bind_eq_some_iff, ensure_eq_some_iff,
    exists_const]
  constructor
  · rintro ⟨version, size, inside, ⟨reader, last⟩, read, ends, result⟩
    refine ⟨version, size, inside, reader, ?_⟩
    split at result
    · rename_i whole
      cases result
      exact ⟨read, ends, rfl, .inl ⟨whole, rfl⟩⟩
    · rename_i tail
      obtain ⟨⟨⟩, valid, result⟩ := Option.bind_eq_some_iff.mp result
      cases result
      exact ⟨read, ends, rfl, .inr ⟨tail, rfl, valid⟩⟩
  · rintro ⟨version, size, inside, reader, read, ends, rfl, ⟨whole, rfl⟩ | ⟨tail, rfl, valid⟩⟩
    · refine ⟨version, size, inside, _, read, ends, ?_⟩
      rw [if_pos whole]
    · refine ⟨version, size, inside, _, read, ends, ?_⟩
      rw [if_neg tail]
      exact read_then valid rfl

/-- Without a tail this is the reader of an append. -/
theorem parseActiveLedger_eq_some_iff {bytes : Bytes} {head : LedgerHead} {checkpointState state : GenerationState} :
    parseActiveLedger bytes head checkpointState = some state ↔
      ∃ ledger, parseActiveLedgerWithTail bytes head checkpointState = some ledger ∧ ledger.state = state ∧
        ledger.truncateOffset = none := by
  simp only [parseActiveLedger, Option.bind_eq_bind, Option.bind_eq_some_iff, ensure_eq_some_iff,
    exists_const, Option.some.injEq]
  constructor
  · rintro ⟨version, ⟨size, whole⟩, reader, read, ends, rfl⟩
    rw [← readAnchoredFrames_fst _ _ _ _ _ none] at read
    obtain ⟨⟨last, record⟩, anchored, rfl⟩ := Option.map_eq_some_iff.mp read
    refine ⟨⟨record, last.state, none⟩, ?_, rfl, rfl⟩
    refine parseActiveLedgerWithTail_eq_some_iff.mpr ⟨version, size, whole.ge, last, ?_, ends, rfl, ?_⟩
    · rw [← whole, subarray_self]
      exact anchored
    · exact .inl ⟨whole, rfl⟩
  · rintro ⟨ledger, parsed, rfl, none⟩
    obtain ⟨version, size, -, reader, read, ends, same, whole | tail⟩ :=
      parseActiveLedgerWithTail_eq_some_iff.mp parsed
    · refine ⟨version, ⟨size, whole.1⟩, reader, ?_, ends, same⟩
      rw [← whole.1, subarray_self] at read
      rw [← readAnchoredFrames_fst _ _ _ _ _ Option.none, read]
      rfl
    · rw [none] at tail
      cases tail.2.1

end PortableCodex.ProviderState
