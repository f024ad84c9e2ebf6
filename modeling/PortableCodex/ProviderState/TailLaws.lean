import PortableCodex.Js.Printable
import PortableCodex.ProviderState.Tail

/-!
Recovery from a torn append.

The payload of a frame is JSON text, so none of its bytes is below a space (`framePayload_ge`), and
both sentinels have a carriage return in their middle: no sentinel begins inside a payload
(`sentinel_window`). A tail that is the beginning of a frame is therefore never taken for damage,
and a tail that holds a whole frame and more shows its footer too early.
-/

namespace PortableCodex.ProviderState

open Js

/-! ### Slices -/

theorem subarray_behind (before after : Bytes) (first last : Nat) :
    subarray (before ++ after) (before.length + first) (before.length + last) = subarray after first last := by
  rw [subarray, subarray, List.take_length_add_append, List.drop_length_add_append]

theorem readUInt32BE_behind (before after : Bytes) (offset : Nat) :
    readUInt32BE (before ++ after) (before.length + offset) = readUInt32BE after offset := by
  rw [readUInt32BE, Nat.add_assoc, subarray_behind, readUInt32BE]

theorem readUInt32BE_take (bytes : Bytes) {offset size : Nat} (inside : offset + 4 ≤ size) :
    readUInt32BE (bytes.take size) offset = readUInt32BE bytes offset := by
  rw [readUInt32BE, subarray_take _ _ inside, readUInt32BE]

theorem getElem?_subarray (bytes : Bytes) {start stop i : Nat} (inside : start + i < stop) :
    (subarray bytes start stop)[i]? = bytes[start + i]? := by
  rw [subarray, List.getElem?_drop, List.getElem?_take_of_lt inside]

/-- A slice of full length lies inside. -/
theorem inside_of_window {bytes pattern : Bytes} {place : Nat} (nonempty : 0 < pattern.length)
    (window : subarray bytes place (place + pattern.length) = pattern) : place + pattern.length ≤ bytes.length := by
  have length := congrArg List.length window
  rw [subarray, List.length_drop, List.length_take] at length
  omega

/-! ### Searching -/

theorem bufferIndexOf_eq_some {bytes pattern : Bytes} {start place : Nat}
    (h : bufferIndexOf bytes pattern start = some place) :
    start ≤ place ∧ subarray bytes place (place + pattern.length) = pattern ∧
      ∀ earlier, start ≤ earlier → earlier < place →
        subarray bytes earlier (earlier + pattern.length) ≠ pattern := by
  obtain ⟨window, member, first⟩ := List.find?_range'_eq_some.mp h
  refine ⟨(List.mem_range'_1.mp member).1, of_decide_eq_true window, fun earlier after before => ?_⟩
  have differs := first earlier after before
  rwa [Bool.not_eq_true', decide_eq_false_iff_not] at differs

/-- The search finds a place no later than any place where the pattern begins. -/
theorem bufferIndexOf_of_window {bytes pattern : Bytes} {start place : Nat} (nonempty : 0 < pattern.length)
    (after : start ≤ place) (window : subarray bytes place (place + pattern.length) = pattern) :
    ∃ first, first ≤ place ∧ bufferIndexOf bytes pattern start = some first := by
  have inside := inside_of_window nonempty window
  cases search : bufferIndexOf bytes pattern start with
  | none =>
    have differs := List.find?_range'_eq_none.mp search place after (by omega)
    rw [Bool.not_eq_true', decide_eq_false_iff_not] at differs
    exact absurd window differs
  | some first =>
    refine ⟨first, ?_, rfl⟩
    by_contra later
    exact (bufferIndexOf_eq_some search).2.2 place after (by omega) window

/-! ### Sentinels -/

/-- What keeps a sentinel out of a payload: its carriage return, and that it does not repeat the first
byte of a footer before that. -/
structure Sentinel (magic : Bytes) : Prop where
  length : magic.length = 8
  carriageReturn : magic[4]? = some 0x0d
  noFooter : ∀ i, 0 < i → i ≤ 4 → magic[i]? ≠ some 0x8a

theorem sentinel_frameMagic : Sentinel frameMagic where
  length := rfl
  carriageReturn := rfl
  noFooter i positive small := by
    interval_cases i <;> decide

theorem sentinel_frameEndMagic : Sentinel frameEndMagic where
  length := rfl
  carriageReturn := rfl
  noFooter i positive small := by
    interval_cases i <;> decide

section Windows

variable {F : Type} [Frame F]

/-- No byte of a payload is a control character. -/
theorem framePayload_ge (frame : F) : ∀ b ∈ framePayload frame, 0x20 ≤ b.toNat := by
  rw [framePayload, canonicalString_eq_stringify]
  exact printable_encodeUtf8 (printable_stringify _)

theorem encoding_payloadByte (frame : F) {i : Nat} (first : 48 ≤ i) (last : i < 48 + (framePayload frame).length) :
    ∃ b, (encoding frame).bytes[i]? = some b ∧ 0x20 ≤ b.toNat := by
  have inside : 48 + (i - 48) < 48 + (framePayload frame).length := by omega
  have slice := getElem?_subarray (encoding frame).bytes inside
  have bound : i - 48 < (framePayload frame).length := by omega
  rw [encoding_payload, Nat.add_sub_cancel' first, List.getElem?_eq_getElem bound] at slice
  exact ⟨_, slice.symm, framePayload_ge frame _ (List.getElem_mem bound)⟩

theorem encoding_footerByte (frame : F) {i : Nat} (inside : i < 48) :
    (encoding frame).bytes[48 + (framePayload frame).length + i]? =
      (encodedMetadata frameEndMagic frame)[i]? := by
  have slice := getElem?_subarray (encoding frame).bytes
    (Nat.add_lt_add_left inside (48 + (framePayload frame).length))
  rw [encoding_footer] at slice
  exact slice.symm

/-- No sentinel begins inside a payload. -/
theorem sentinel_window {frame : F} {magic : Bytes} (sentinel : Sentinel magic) {place : Nat} (first : 48 ≤ place)
    (window : subarray (encoding frame).bytes place (place + 8) = magic) :
    48 + (framePayload frame).length ≤ place := by
  by_contra before
  have unit (i : Nat) (small : i < 8) : (encoding frame).bytes[place + i]? = magic[i]? := by
    rw [← window, getElem?_subarray _ (by omega)]
  by_cases inside : place + 4 < 48 + (framePayload frame).length
  · -- the carriage return would be a byte of the payload
    obtain ⟨b, byte, printable⟩ := encoding_payloadByte frame (by omega : 48 ≤ place + 4) inside
    rw [unit 4 (by omega), sentinel.carriageReturn] at byte
    obtain rfl := Option.some.inj byte
    exact absurd printable (by decide)
  · -- the footer would begin inside the sentinel
    have footer := encoding_footerByte frame (by omega : 0 < 48)
    have place_eq : 48 + (framePayload frame).length + 0 =
        place + (48 + (framePayload frame).length - place) := by omega
    rw [place_eq, unit _ (by omega)] at footer
    exact sentinel.noFooter _ (by omega) (by omega) footer

/-- A sentinel of a header in a footer lies behind the length of the payload. -/
theorem magic_window {frame : F} (fits : Fits frame) {place : Nat} (first : 48 + (framePayload frame).length ≤ place)
    (window : subarray (encoding frame).bytes place (place + 8) = frameMagic) :
    48 + (framePayload frame).length + 8 < place := by
  by_contra before
  have unit (i : Nat) (small : i < 8) : (encoding frame).bytes[place + i]? = frameMagic[i]? := by
    rw [← window, getElem?_subarray _ (by omega)]
  by_cases start : place = 48 + (framePayload frame).length
  · have footer := encoding_footerByte frame (by omega : 0 < 48)
    rw [← start, unit 0 (by omega)] at footer
    exact absurd footer (by decide : frameMagic[0]? ≠ some 0x8a)
  · -- the first byte of the length is zero
    have footer := encoding_footerByte frame (by omega : 8 < 48)
    have place_eq : 48 + (framePayload frame).length + 8 =
        place + (48 + (framePayload frame).length + 8 - place) := by omega
    have zero : (encodedMetadata frameEndMagic frame)[8]? = some 0 := by
      obtain ⟨-, small⟩ := fits
      have quotient : (framePayload frame).length / 0x1000000 % 0x100 = 0 := by
        have bound : maxFramePayloadBytes = 4194304 := rfl
        omega
      have digit : (encodedMetadata frameEndMagic frame)[8]? =
          some (byte ((framePayload frame).length / 0x1000000 % 0x100)) := rfl
      rw [digit, quotient]
      rfl
    rw [place_eq, unit _ (by omega), zero] at footer
    have free : ∀ i < 8, frameMagic[i]? ≠ some 0 := by decide
    exact free _ (by omega) footer

end Windows

/-! ### The header of an encoding -/

section Header

variable {F : Type} [Frame F] (frame : F)

theorem encoding_magic : subarray (encoding frame).bytes 0 8 = frameMagic := by
  have slice := @subarray_subarray (encoding frame).bytes 0 48 0 8 (by omega)
  rw [encoding_header] at slice
  rw [← frameMetadata_magic frameMagic_length]
  exact slice.symm

theorem encoding_payloadLength (fits : Fits frame) :
    readUInt32BE (encoding frame).bytes 8 = (framePayload frame).length := by
  have small : (framePayload frame).length < 2 ^ 32 := lt_of_le_of_lt fits.2 (by decide)
  have slice := readUInt32BE_subarray (encoding frame).bytes (by omega : 0 + (8 + 4) ≤ 48)
  rw [encoding_header, encodedMetadata, frameMetadata_payloadLength frameMagic_length small] at slice
  exact slice.symm

theorem encoding_sequence : readUInt32BE (encoding frame).bytes 12 = Frame.sequence frame := by
  have slice := readUInt32BE_subarray (encoding frame).bytes (by omega : 0 + (12 + 4) ≤ 48)
  rw [encoding_header, encodedMetadata,
    frameMetadata_sequence frameMagic_length (Frame.sequence_lt frame)] at slice
  exact slice.symm

theorem encoding_checksum : subarray (encoding frame).bytes 16 48 = encodedChecksum frame := by
  have digest : (encodedChecksum frame).length = 32 := frameChecksum_length _ _ _ _
  have slice := @subarray_subarray (encoding frame).bytes 0 48 16 48 (by omega)
  rw [encoding_header, encodedMetadata,
    frameMetadata_checksum frameMagic_length digest] at slice
  exact slice.symm

theorem encoding_endMagic : subarray (encoding frame).bytes (48 + (framePayload frame).length)
    (48 + (framePayload frame).length + 8) = frameEndMagic := by
  have slice := @subarray_subarray (encoding frame).bytes (48 + (framePayload frame).length)
    (48 + (framePayload frame).length + 48) 0 8 (by omega)
  rw [encoding_footer, encodedMetadata, frameMetadata_magic frameEndMagic_length] at slice
  exact slice.symm

end Header

/-! ### A torn append -/

/-- A sentinel inside the first bytes of an encoding that touches the digest of the footer. -/
def DigestSentinel (encoded : Encoded DeltaFrame) (size : Nat) : Prop :=
  size < encoded.bytes.length ∧
    ∃ place, 48 + (framePayload encoded.frame).length + 8 < place ∧ place + 8 ≤ size ∧
      subarray encoded.bytes place (place + 8) = frameMagic

section Torn

variable {ledger : Bytes} {head : LedgerHead} {state : GenerationState} {frame : DeltaFrame} {size : Nat}

/-- A window of what was written of a frame is a window of the frame. -/
theorem torn_window {magic : Bytes} (length : magic.length = 8) {place : Nat}
    (after : ledger.length + 48 ≤ place)
    (window : subarray (ledger ++ (encoding frame).bytes.take size) place (place + magic.length) = magic) :
    ∃ inner, place = ledger.length + inner ∧ 48 ≤ inner ∧ inner + 8 ≤ size ∧
      subarray (encoding frame).bytes inner (inner + 8) = magic := by
  obtain ⟨inner, rfl⟩ := Nat.exists_eq_add_of_le (by omega : ledger.length ≤ place)
  rw [Nat.add_assoc, subarray_behind] at window
  have inside := inside_of_window (by omega) window
  rw [length, List.length_take] at inside
  have within : inner + 8 ≤ size := by omega
  rw [length, subarray_take _ _ within] at window
  exact ⟨inner, rfl, by omega, within, window⟩

/-- The beginning of a frame shows no sentinel but its own. -/
theorem torn_noSentinel (fits : Fits frame) (partially : size < (encoding frame).bytes.length)
    (clean : ¬ DigestSentinel (encoding frame) size) :
    hasLaterSentinel (ledger ++ (encoding frame).bytes.take size) (ledger.length + 48)
      (ledger.length + 48 + (framePayload frame).length) = false := by
  have noFrame : bufferIndexOf (ledger ++ (encoding frame).bytes.take size) frameMagic
      (ledger.length + 48) = none := by
    cases search : bufferIndexOf (ledger ++ (encoding frame).bytes.take size) frameMagic
      (ledger.length + 48) with
    | none => rfl
    | some place =>
      obtain ⟨after, window, -⟩ := bufferIndexOf_eq_some search
      obtain ⟨inner, rfl, first, within, window⟩ := torn_window frameMagic_length after window
      have behind := magic_window fits (sentinel_window sentinel_frameMagic first window) window
      exact absurd ⟨partially, inner, behind, within, window⟩ clean
  unfold hasLaterSentinel
  rw [noFrame, Option.isSome_none, if_neg Bool.false_ne_true]
  split
  · rfl
  · rename_i place search
    obtain ⟨after, window, earliest⟩ := bufferIndexOf_eq_some search
    obtain ⟨inner, rfl, first, within, window⟩ := torn_window frameEndMagic_length after window
    have behind := sentinel_window sentinel_frameEndMagic first window
    -- an earlier one would be the frame's own
    have own : inner = 48 + (framePayload frame).length := by
      by_contra later
      have before := earliest (ledger.length + (48 + (framePayload frame).length)) (by omega) (by omega)
      rw [Nat.add_assoc, subarray_behind, frameEndMagic_length, subarray_take _ _ (by omega)] at before
      exact before (encoding_endMagic frame)
    rw [own, ← Nat.add_assoc, decide_eq_false_iff_not, not_not]

/-- The first bytes of a header are the first bytes of its magic. -/
theorem validate_shortTail (positive : 0 < size) (short : size < 48) :
    validateUnanchoredDeltaTail (ledger ++ (encoding frame).bytes.take size) ledger.length head state =
      some () := by
  have length : ((encoding frame).bytes.take size).length = size := by
    rw [List.length_take, encoding_length]
    omega
  have magic : subarray (ledger ++ (encoding frame).bytes.take size) ledger.length
      (ledger.length + min size 8) = subarray frameMagic 0 (min size 8) := by
    have behind := subarray_behind ledger ((encoding frame).bytes.take size) 0 (min size 8)
    have slice := @subarray_subarray (encoding frame).bytes 0 8 0 (min size 8) (by omega)
    rw [encoding_magic, Nat.zero_add, Nat.zero_add] at slice
    rw [Nat.add_zero, subarray_take _ _ (Nat.min_le_left _ _)] at behind
    exact behind.trans slice.symm
  unfold validateUnanchoredDeltaTail
  simp only [List.length_append, length, Nat.add_sub_cancel_left, frameMagic_length]
  refine read_then (ensure_pos positive) ?_
  rw [if_pos short]
  exact ensure_pos magic

/-- A tail that ends behind its header, if what follows the header is accepted. -/
theorem validate_headerTail (fits : Fits frame) (sequence : frame.sequence.val = head.frameCount.val + 1)
    (long : 48 ≤ size) (within : size ≤ (encoding frame).bytes.length)
    (complete : size = (encoding frame).bytes.length →
      validateCompleteTail (ledger ++ (encoding frame).bytes) ledger.length frame.sequence.val
        (ledger ++ (encoding frame).bytes).length head state = some ())
    (sentinel : size < (encoding frame).bytes.length →
      hasLaterSentinel (ledger ++ (encoding frame).bytes.take size) (ledger.length + 48)
        (ledger.length + 48 + (framePayload frame).length) = false)
    (payload : 48 + (framePayload frame).length ≤ size →
      validatePayloadTail (ledger ++ (encoding frame).bytes.take size) ledger.length
        (framePayload frame).length frame.sequence.val head state = some ()) :
    validateUnanchoredDeltaTail (ledger ++ (encoding frame).bytes.take size) ledger.length head state =
      some () := by
  have length : ((encoding frame).bytes.take size).length = size := by
    rw [List.length_take, Nat.min_eq_left within]
  have total := encoding_length frame
  have magic := subarray_behind ledger ((encoding frame).bytes.take size) 0 8
  rw [Nat.add_zero, subarray_take _ _ (by omega), encoding_magic] at magic
  have payloadLength := readUInt32BE_behind ledger ((encoding frame).bytes.take size) 8
  rw [readUInt32BE_take _ (by omega), encoding_payloadLength frame fits] at payloadLength
  have sequence' := readUInt32BE_behind ledger ((encoding frame).bytes.take size) 12
  rw [readUInt32BE_take _ (by omega), encoding_sequence] at sequence'
  have room : frame.sequence.val ≤ maxFrameCount := frame.sequence.property.2
  unfold validateUnanchoredDeltaTail
  simp only [List.length_append, length, Nat.add_sub_cancel_left]
  refine read_then (ensure_pos (by omega)) ?_
  rw [if_neg (Nat.not_lt.mpr long)]
  unfold validateHeaderTail
  simp only [frameMagic_length, Nat.add_assoc ledger.length 8 4, magic, payloadLength, sequence']
  refine read_then (ensure_pos trivial) (read_then (ensure_pos ⟨fits.1, fits.2, sequence, room⟩) ?_)
  rw [List.length_append, length]
  by_cases whole : ledger.length + 48 + (framePayload frame).length + 48 ≤ ledger.length + size
  · have all : size = (encoding frame).bytes.length := by omega
    have frameEnd : ledger.length + 48 + (framePayload frame).length + 48 =
        (ledger ++ (encoding frame).bytes).length := by
      rw [List.length_append]
      omega
    rw [if_pos whole, frameEnd, all, List.take_length]
    exact complete all
  · rw [if_neg whole]
    refine read_then (ensure_pos (sentinel (by omega))) ?_
    by_cases footer : ledger.length + 48 + (framePayload frame).length ≤ ledger.length + size
    · rw [if_pos footer]
      exact payload (by omega)
    · rw [if_neg footer]

/-- The frame that was being appended, and what the reader checks of it. -/
structure NextFrame (head : LedgerHead) (state : GenerationState) (frame : DeltaFrame) : Prop where
  fits : Fits frame
  version : frame.contractVersion = head.contractVersion
  sequence : frame.sequence.val = head.frameCount.val + 1
  linked : frame.previousChecksum = head.lastChecksum
  applies : ∃ applied, applyDeltaFrame state frame (encoding frame).checksum frame.sequence.val = some applied

theorem NextFrame.completeTail (next : NextFrame head state frame) :
    validateCompleteTail (ledger ++ (encoding frame).bytes) ledger.length frame.sequence.val
      (ledger ++ (encoding frame).bytes).length head state = some () := by
  obtain ⟨fits, version, -, linked, _, applied⟩ := next
  have parsed := parseEnvelopeFromBuffer_eq_some_iff.mpr (isEnvelope_encoding fits ledger [])
  rw [List.append_nil] at parsed
  unfold validateCompleteTail
  rw [← version]
  exact read_then (ensure_pos rfl) (read_then parsed (read_then (ensure_pos linked) (read_then applied rfl)))

theorem NextFrame.payloadTail (next : NextFrame head state frame)
    (payload : 48 + (framePayload frame).length ≤ size) :
    validatePayloadTail (ledger ++ (encoding frame).bytes.take size) ledger.length (framePayload frame).length
      frame.sequence.val head state = some () := by
  obtain ⟨fits, version, -, linked, _, applied⟩ := next
  have body := subarray_behind ledger ((encoding frame).bytes.take size) 48 (48 + (framePayload frame).length)
  rw [subarray_take _ _ payload, encoding_payload, ← Nat.add_assoc] at body
  have digest := subarray_behind ledger ((encoding frame).bytes.take size) 16 48
  rw [subarray_take _ _ (by omega), encoding_checksum] at digest
  have parsed : parseCanonicalPayload head.contractVersion (framePayload frame) = some frame :=
    parseCanonicalPayload_eq_some_iff.mpr ⟨version, rfl⟩
  unfold validatePayloadTail
  simp only [frameMagic_length, Nat.add_assoc ledger.length 8 8, body, digest]
  rw [← version] at parsed ⊢
  exact read_then (ensure_pos rfl) (read_then parsed (read_then (ensure_pos ⟨rfl, linked⟩)
    (read_then applied rfl)))

/-- The first bytes of a frame that goes on from the head are accepted as a tail. -/
theorem NextFrame.tail (next : NextFrame head state frame) (positive : 0 < size)
    (within : size ≤ (encoding frame).bytes.length) (clean : ¬ DigestSentinel (encoding frame) size) :
    validateUnanchoredDeltaTail (ledger ++ (encoding frame).bytes.take size) ledger.length head state =
      some () := by
  by_cases short : size < 48
  · exact validate_shortTail positive short
  · apply validate_headerTail next.fits next.sequence (Nat.not_lt.mp short) within
    · intro
      exact next.completeTail
    · intro partially
      exact torn_noSentinel next.fits partially clean
    · exact next.payloadTail

/-! ### A frame and more -/

/-- A tail that holds a whole frame, and something behind it, is refused. -/
theorem validate_none_of_more {before after : Bytes} (more : after ≠ []) :
    validateUnanchoredDeltaTail (ledger ++ (before ++ ((encoding frame).bytes ++ after))) ledger.length head
      state = none := by
  have some_after := List.length_pos_of_ne_nil more
  have total := encoding_length frame
  generalize place_eq : before.length + (48 + (framePayload frame).length) = place
  generalize tail_eq : before ++ ((encoding frame).bytes ++ after) = tail
  have length : tail.length = place + 48 + after.length := by
    rw [← tail_eq, List.length_append, List.length_append]
    omega
  -- the footer of the frame inside the tail
  have window : subarray tail place (place + 8) = frameEndMagic := by
    rw [← tail_eq, ← place_eq, Nat.add_assoc, subarray_behind, ← subarray_take _ _ (by omega :
      48 + (framePayload frame).length + 8 ≤ (encoding frame).bytes.length), List.take_left,
      encoding_endMagic]
  by_contra accepted
  obtain ⟨⟨⟩, accepted⟩ := Option.ne_none_iff_exists'.mp accepted
  simp only [validateUnanchoredDeltaTail, List.length_append, Nat.add_sub_cancel_left, frameHeaderBytes]
    at accepted
  obtain ⟨-, -, accepted⟩ := Option.bind_eq_some_iff.mp accepted
  rw [if_neg (by omega)] at accepted
  obtain ⟨-, -, accepted⟩ := Option.bind_eq_some_iff.mp accepted
  obtain ⟨-, -, accepted⟩ := Option.bind_eq_some_iff.mp accepted
  dsimp only at accepted
  split at accepted
  · -- the tail would be one frame, with a sentinel in its payload
    obtain ⟨_, frameEnd, accepted⟩ := Option.bind_eq_some_iff.mp accepted
    obtain ⟨parsed, read, -⟩ := Option.bind_eq_some_iff.mp accepted
    have frameEnd := ensure_eq_some_iff.mp frameEnd
    obtain ⟨-, -, fits, -, parsedEnd, inside, bytes⟩ := parseEnvelopeFromBuffer_eq_some_iff.mp read
    have parsedLength := encoding_length parsed.frame
    have parsedPayload := readUInt32BE_subarray (ledger ++ tail)
      (by omega : ledger.length + (8 + 4) ≤ parsed.frameEnd)
    rw [bytes, encoding_payloadLength _ fits] at parsedPayload
    simp only [frameMagic_length, ← parsedPayload, frameHeaderBytes, frameFooterBytes, List.length_append]
      at frameEnd
    have whole : (encoding parsed.frame).bytes = tail := by
      have all := subarray_behind ledger tail 0 tail.length
      rw [subarray_self, Nat.add_zero] at all
      have last : parsed.frameEnd = ledger.length + tail.length := by omega
      rw [← bytes, last]
      exact all
    rw [← whole] at window length
    have behind := sentinel_window sentinel_frameEndMagic (by omega) window
    omega
  · -- the search would stop at the footer of the frame, or before it
    rename_i incomplete
    obtain ⟨_, noSentinel, -⟩ := Option.bind_eq_some_iff.mp accepted
    have noSentinel := ensure_eq_some_iff.mp noSentinel
    simp only [frameMagic_length, frameHeaderBytes] at noSentinel
    have behind := subarray_behind ledger tail place (place + 8)
    rw [window, ← Nat.add_assoc] at behind
    obtain ⟨first, before_place, search⟩ := @bufferIndexOf_of_window (ledger ++ tail) frameEndMagic
      (ledger.length + 48) (ledger.length + place) (by decide) (by omega) behind
    rw [hasLaterSentinel, search] at noSentinel
    split at noSentinel
    · cases noSentinel
    · have own : first = ledger.length + 48 + readUInt32BE (ledger ++ tail) (ledger.length + 8) := by
        simpa using noSentinel
      simp only [frameMagic_length, frameHeaderBytes, frameFooterBytes, List.length_append] at incomplete
      omega

end Torn

/-! ### Recovery -/

section Recovery

variable {ledger : Bytes} {head : LedgerHead} {checkpointState : GenerationState} {anchored : ActiveLedger}

theorem whole_length (valid : parseActiveLedgerWithTail ledger head checkpointState = some anchored)
    (whole : anchored.truncateOffset = none) : ledger.length = head.ledgerBytes.val := by
  obtain ⟨-, -, -, _, -, -, -, exact | tail⟩ := parseActiveLedgerWithTail_eq_some_iff.mp valid
  · exact exact.1
  · rw [whole] at tail
    cases tail.2.1

/-- An accepted tail is marked to be cut off, and nothing else changes. -/
theorem parseActiveLedgerWithTail_append
    (valid : parseActiveLedgerWithTail ledger head checkpointState = some anchored)
    (whole : anchored.truncateOffset = none) {tail : Bytes} (nonempty : 0 < tail.length)
    (room : ledger.length + tail.length ≤ maxLedgerBytes)
    (accepted : validateUnanchoredDeltaTail (ledger ++ tail) ledger.length head anchored.state = some ()) :
    parseActiveLedgerWithTail (ledger ++ tail) head checkpointState =
      some { anchored with truncateOffset := some head.ledgerBytes.val } := by
  have length := whole_length valid whole
  obtain ⟨version, -, -, reader, read, ends, state, -⟩ := parseActiveLedgerWithTail_eq_some_iff.mp valid
  have anchoredBytes : subarray (ledger ++ tail) 0 head.ledgerBytes.val =
      subarray ledger 0 head.ledgerBytes.val := by
    rw [← length, subarray, List.take_left, List.drop_zero, subarray_self]
  apply parseActiveLedgerWithTail_eq_some_iff.mpr
  rw [List.length_append, anchoredBytes]
  refine ⟨version, room, by omega, reader, read, ends, state, .inr ⟨by omega, rfl, ?_⟩⟩
  rw [← length]
  exact accepted

/-- Whatever a torn append has written is recovered from: the anchored ledger is read as before, and the
rest is cut off. A whole frame with anything behind it is refused. -/
theorem tornAppend_recovery
    (valid : parseActiveLedgerWithTail ledger head checkpointState = some anchored)
    (whole : anchored.truncateOffset = none) :
    (∀ event encoded applied size, encodeDeltaEvent head event = some encoded →
      applyDeltaFrame anchored.state encoded.frame encoded.checksum encoded.frame.sequence.val = some applied →
      -- `appendDeltaEvent` checks this before it writes
      head.ledgerBytes.val + encoded.bytes.length ≤ maxLedgerBytes →
      0 < size → size ≤ encoded.bytes.length → ¬ DigestSentinel encoded size →
      parseActiveLedgerWithTail (ledger ++ encoded.bytes.take size) head checkpointState =
        some { anchored with truncateOffset := some head.ledgerBytes.val }) ∧
    ∀ (frame : DeltaFrame) encoded before after, encodeCanonicalFrame frame = some encoded → after ≠ [] →
      parseActiveLedgerWithTail (ledger ++ (before ++ (encoded.bytes ++ after))) head checkpointState = none := by
  have length := whole_length valid whole
  constructor
  · intro event encoded applied size encodes applies room positive within clean
    obtain ⟨same, sequence, -⟩ := encodeDeltaEvent_eq_some encodes
    obtain ⟨version, linked⟩ := encodeDeltaEvent_linked encodes
    have taken : (encoded.bytes.take size).length = size := by
      rw [List.length_take, Nat.min_eq_left within]
    apply parseActiveLedgerWithTail_append valid whole
    · omega
    · omega
    · rw [same] at within clean applies ⊢
      have next : NextFrame head anchored.state encoded.frame :=
        ⟨fits_of_within encoded.frame.within, version, sequence, linked, applied, applies⟩
      exact next.tail positive within clean
  · intro frame encoded before after encodes more
    obtain ⟨-, rfl⟩ := encodeCanonicalFrame_eq_some_iff.mp encodes
    by_contra accepted
    obtain ⟨result, accepted⟩ := Option.ne_none_iff_exists'.mp accepted
    obtain ⟨-, -, -, _, -, -, -, exact | tail⟩ := parseActiveLedgerWithTail_eq_some_iff.mp accepted
    · have added := exact.1
      rw [List.length_append, List.length_append, List.length_append, encoding_length] at added
      omega
    · have refused := tail.2.2
      rw [← length, validate_none_of_more more] at refused
      cases refused

/-- The first sixty bytes of a provider's first frame, behind a ledger that is still empty. -/
theorem tornAppend_recovery_first :
    parseActiveLedgerWithTail ([] ++ (encoding (DeltaFrame.prepared (firstPrepared .v3))).bytes.take 60)
        (genesisCache .v3).head (genesisCache .v3).checkpointState =
      some { lastAppliedRecord := none, state := (genesisCache .v3).state, truncateOffset := some 0 } := by
  have valid : parseActiveLedgerWithTail [] (genesisCache .v3).head (genesisCache .v3).checkpointState =
      some { lastAppliedRecord := none, state := (genesisCache .v3).state, truncateOffset := none } := rfl
  have length := encoding_length (DeltaFrame.prepared (firstPrepared .v3))
  have within := (encodeDeltaEvent_length (openingEvent_encoded .v3)).2
  have noBytes : (genesisCache .v3).head.ledgerBytes.val = 0 := rfl
  refine (tornAppend_recovery valid rfl).1 (openingEvent .v3) _ _ 60 (openingEvent_encoded .v3)
    (firstPending_applied .v3 _) ?_ (by decide) ?_ ?_
  · omega
  · omega
  · rintro ⟨-, place, behind, inside, -⟩
    dsimp only [encoding] at behind
    omega

end Recovery

end PortableCodex.ProviderState
