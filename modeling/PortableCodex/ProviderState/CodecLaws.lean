import PortableCodex.ProviderState.Codec

/-!
The two readers accept exactly the encodings of frames.
-/

namespace PortableCodex.ProviderState

open Js

@[simp] theorem frameMagic_length : frameMagic.length = 8 := rfl
@[simp] theorem frameEndMagic_length : frameEndMagic.length = 8 := rfl

@[simp] theorem frameChecksum_length (payload : Bytes) (payloadLength sequence : Nat) (version : Version) :
    (frameChecksum payload payloadLength sequence version).length = 32 := sha256_length _

/-! ### Headers and footers -/

section Metadata

variable {magic checksum : Bytes} {payloadLength sequence : Nat}

theorem frameMetadata_length (size : magic.length = 8) (digest : checksum.length = 32) :
    (frameMetadata magic payloadLength sequence checksum).length = 48 := by
  simp [frameMetadata, size, digest]

theorem frameMetadata_magic (size : magic.length = 8) :
    subarray (frameMetadata magic payloadLength sequence checksum) 0 8 = magic := by
  have slice := subarray_append [] magic (uint32BE payloadLength ++ (uint32BE sequence ++ checksum))
  rwa [List.nil_append, List.length_nil, Nat.zero_add, size] at slice

theorem frameMetadata_payloadLength (size : magic.length = 8) (small : payloadLength < 2 ^ 32) :
    readUInt32BE (frameMetadata magic payloadLength sequence checksum) 8 = payloadLength := by
  have slice := subarray_append magic (uint32BE payloadLength) (uint32BE sequence ++ checksum)
  rw [size, uint32BE_length] at slice
  rw [readUInt32BE, frameMetadata, slice, valueBE_uint32BE small]

theorem frameMetadata_sequence (size : magic.length = 8) (small : sequence < 2 ^ 32) :
    readUInt32BE (frameMetadata magic payloadLength sequence checksum) 12 = sequence := by
  have slice := subarray_append (magic ++ uint32BE payloadLength) (uint32BE sequence) checksum
  rw [List.append_assoc, List.length_append, size, uint32BE_length, uint32BE_length] at slice
  rw [readUInt32BE, frameMetadata, slice, valueBE_uint32BE small]

theorem frameMetadata_checksum (size : magic.length = 8) (digest : checksum.length = 32) :
    subarray (frameMetadata magic payloadLength sequence checksum) 16 48 = checksum := by
  have slice := subarray_append (magic ++ uint32BE payloadLength ++ uint32BE sequence) checksum []
  rw [List.append_nil, List.append_assoc, List.append_assoc, List.length_append, List.length_append, size,
    uint32BE_length, uint32BE_length, digest] at slice
  exact slice

/-- A header or a footer is determined by its four fields. -/
theorem eq_frameMetadata {bytes : Bytes} (size : bytes.length = 48) (head : subarray bytes 0 8 = magic) :
    bytes = frameMetadata magic (readUInt32BE bytes 8) (readUInt32BE bytes 12) (subarray bytes 16 48) := by
  have four (offset : Nat) (inside : offset + 4 ≤ 48) :
      uint32BE (readUInt32BE bytes offset) = subarray bytes offset (offset + 4) := by
    refine uint32BE_valueBE ?_
    rw [subarray_length (by omega)]
    omega
  rw [frameMetadata, four 8 (by decide), four 12 (by decide), ← head, subarray_add bytes (by decide) (by decide),
    subarray_add bytes (by decide) (by decide), subarray_add bytes (by decide) (by decide)]
  exact (size ▸ subarray_self bytes).symm

end Metadata

section Codec

variable {F : Type} [Frame F]

/-- The checksum of an encoded frame, as bytes. -/
def encodedChecksum (frame : F) : Bytes :=
  frameChecksum (framePayload frame) (framePayload frame).length (Frame.sequence frame)
    (Frame.contractVersion frame)

/-- A header or footer of an encoded frame. -/
def encodedMetadata (magic : Bytes) (frame : F) : Bytes :=
  frameMetadata magic (framePayload frame).length (Frame.sequence frame) (encodedChecksum frame)

/-- The payload of a frame is within the limit of a frame. -/
def Fits (frame : F) : Prop :=
  0 < (framePayload frame).length ∧ (framePayload frame).length ≤ maxFramePayloadBytes

/-- The encoding of a frame that fits. -/
def encoding (frame : F) : Encoded F where
  bytes := encodedMetadata frameMagic frame ++ (framePayload frame ++ encodedMetadata frameEndMagic frame)
  checksum := frameChecksumText (framePayload frame) (framePayload frame).length (Frame.sequence frame)
    (Frame.contractVersion frame)
  frame := frame

theorem encodeCanonicalFrame_eq_some_iff {frame : F} {encoded : Encoded F} :
    encodeCanonicalFrame frame = some encoded ↔ Fits frame ∧ encoding frame = encoded := by
  simp only [encodeCanonicalFrame, Option.bind_eq_bind, Option.bind_eq_some_iff, ensure_eq_some_iff,
    exists_const, Option.some.injEq]
  rfl

theorem encodedMetadata_length {magic : Bytes} (size : magic.length = 8) (frame : F) :
    (encodedMetadata magic frame).length = 48 :=
  frameMetadata_length size (frameChecksum_length _ _ _ _)

theorem encoding_length (frame : F) : (encoding frame).bytes.length = 96 + (framePayload frame).length := by
  simp only [encoding, List.length_append, encodedMetadata_length frameMagic_length,
    encodedMetadata_length frameEndMagic_length]
  omega

theorem parseCanonicalPayload_eq_some_iff {version : Version} {payload : Bytes} {frame : F} :
    parseCanonicalPayload version payload = some frame ↔
      Frame.contractVersion frame = version ∧ framePayload frame = payload := by
  simp only [parseCanonicalPayload, Option.bind_eq_bind, Option.bind_eq_some_iff, ensure_eq_some_iff,
    exists_const, Option.some.injEq]
  constructor
  · rintro ⟨bytes, value, -, normalized, normalizedFrame, text, rfl⟩
    refine ⟨Frame.normalize_version normalizedFrame, ?_⟩
    rw [framePayload, text, bytes]
  · rintro ⟨rfl, rfl⟩
    have decoded : decodeUtf8 (framePayload frame) = canonicalString (Frame.json frame) :=
      decodeUtf8_canonicalString _
    rw [decoded, parseJson_canonicalString]
    exact ⟨rfl, _, rfl, frame, Frame.normalize_json frame, rfl, rfl⟩

theorem readExact_eq_some_iff {file bytes : Bytes} {size position : Nat} :
    readExact file size position = some bytes ↔
      position + size ≤ file.length ∧ subarray file position (position + size) = bytes := by
  simp only [readExact, Option.bind_eq_bind, Option.bind_eq_some_iff, ensure_eq_some_iff, exists_const,
    Option.some.injEq]

/-- A slice of a slice of a file is a slice of its first bytes. -/
theorem subarray_slice (file : Bytes) {start stop size : Nat} (first last : Nat) (inside : start + last ≤ stop)
    (within : stop ≤ size) :
    subarray (subarray file start stop) first last = subarray (file.take size) (start + first) (start + last) := by
  rw [subarray_subarray file inside, subarray_take file _ (inside.trans within)]

theorem readUInt32BE_slice (file : Bytes) {start stop size : Nat} (offset : Nat)
    (inside : start + (offset + 4) ≤ stop) (within : stop ≤ size) :
    readUInt32BE (subarray file start stop) offset = readUInt32BE (file.take size) (start + offset) := by
  rw [readUInt32BE, subarray_slice file _ _ inside within, readUInt32BE, Nat.add_assoc]

/-- Reading past the end of the file fails as reading past the given size does. -/
theorem readEnvelopeAt_min (version : Version) (file : Bytes) (offset totalBytes expectedSequence : Nat) :
    (readEnvelopeAt version file offset totalBytes expectedSequence : Option (Envelope F)) =
      readEnvelopeAt version file offset (min totalBytes file.length) expectedSequence := by
  refine Option.ext fun r => ?_
  simp only [readEnvelopeAt, Option.bind_eq_bind, Option.bind_eq_some_iff, ensure_eq_some_iff, exists_const,
    Option.some.injEq, readExact_eq_some_iff]
  constructor
  · rintro ⟨first, header, headerRead, magic, range, second, payload, payloadRead, footer, footerRead, rest⟩
    exact ⟨by omega, header, headerRead, magic, range, by omega, payload, payloadRead, footer, footerRead, rest⟩
  · rintro ⟨first, header, headerRead, magic, range, second, payload, payloadRead, footer, footerRead, rest⟩
    exact ⟨by omega, header, headerRead, magic, range, by omega, payload, payloadRead, footer, footerRead, rest⟩

theorem readEnvelopeAt_take (version : Version) (file : Bytes) (offset totalBytes expectedSequence : Nat)
    (inside : totalBytes ≤ file.length) :
    (readEnvelopeAt version file offset totalBytes expectedSequence : Option (Envelope F)) =
      parseEnvelopeFromBuffer version (file.take totalBytes) offset expectedSequence := by
  have size : (file.take totalBytes).length = totalBytes := by
    rw [List.length_take, Nat.min_eq_left inside]
  refine Option.ext fun r => ?_
  simp only [readEnvelopeAt, parseEnvelopeFromBuffer, Option.bind_eq_bind, Option.bind_eq_some_iff,
    ensure_eq_some_iff, exists_const, Option.some.injEq, readExact_eq_some_iff]
  simp only [frameHeaderBytes, frameFooterBytes, frameMagic_length, frameEndMagic_length, size]
  by_cases header : offset + 48 ≤ totalBytes
  · -- the fields of the header
    have magic := subarray_slice file 0 8 (by omega : offset + 8 ≤ offset + 48) header
    have payloadLength := readUInt32BE_slice file 8 (by omega : offset + 12 ≤ offset + 48) header
    have sequence := readUInt32BE_slice file (8 + 4) (by omega : offset + 16 ≤ offset + 48) header
    have checksum := subarray_slice file (8 + 8) 48 (by omega : offset + 48 ≤ offset + 48) header
    have header' : 48 ≤ totalBytes - offset := by omega
    have inside' : offset + 48 ≤ file.length := by omega
    simp only [header, header', inside', true_and, exists_eq_left', magic, payloadLength, sequence, checksum,
      Nat.add_zero, ← Nat.add_assoc]
    generalize readUInt32BE (file.take totalBytes) (offset + 8) = length
    by_cases footer : offset + 48 + length + 48 ≤ totalBytes
    · -- the payload and the fields of the footer
      have payload := subarray_take file (offset + 48) (by omega : offset + 48 + length ≤ totalBytes)
      have magic := subarray_slice file 0 8
        (by omega : offset + 48 + length + 8 ≤ offset + 48 + length + 48) footer
      have payloadLength := readUInt32BE_slice file 8
        (by omega : offset + 48 + length + 12 ≤ offset + 48 + length + 48) footer
      have sequence := readUInt32BE_slice file (8 + 4)
        (by omega : offset + 48 + length + 16 ≤ offset + 48 + length + 48) footer
      have checksum := subarray_slice file (8 + 8) 48
        (by omega : offset + 48 + length + 48 ≤ offset + 48 + length + 48) footer
      have payloadInside : offset + 48 + length ≤ file.length := by omega
      have footerInside : offset + 48 + length + 48 ≤ file.length := by omega
      simp only [footer, payloadInside, footerInside, true_and, exists_eq_left', magic, payloadLength,
        sequence, checksum, payload, Nat.add_zero, ← Nat.add_assoc]
    · simp only [footer, false_and, and_false]
  · have header' : ¬ 48 ≤ totalBytes - offset := by omega
    simp only [header, header', false_and]

/-- The file reader is the buffer reader on the first bytes of the file. -/
theorem readEnvelopeAt_eq (version : Version) (file : Bytes) (offset totalBytes expectedSequence : Nat) :
    (readEnvelopeAt version file offset totalBytes expectedSequence : Option (Envelope F)) =
      parseEnvelopeFromBuffer version (file.take totalBytes) offset expectedSequence := by
  rw [readEnvelopeAt_min, readEnvelopeAt_take _ _ _ _ _ (Nat.min_le_right _ _), ← List.take_eq_take_min]

/-! ### The three parts of an encoding -/

theorem encoding_header (frame : F) :
    subarray (encoding frame).bytes 0 48 = encodedMetadata frameMagic frame := by
  have slice := subarray_append [] (encodedMetadata frameMagic frame)
    (framePayload frame ++ encodedMetadata frameEndMagic frame)
  rwa [List.nil_append, List.length_nil, Nat.zero_add, encodedMetadata_length frameMagic_length] at slice

theorem encoding_payload (frame : F) :
    subarray (encoding frame).bytes 48 (48 + (framePayload frame).length) = framePayload frame := by
  have slice := subarray_append (encodedMetadata frameMagic frame) (framePayload frame)
    (encodedMetadata frameEndMagic frame)
  rwa [encodedMetadata_length frameMagic_length] at slice

theorem encoding_footer (frame : F) :
    subarray (encoding frame).bytes (48 + (framePayload frame).length)
      (48 + (framePayload frame).length + 48) = encodedMetadata frameEndMagic frame := by
  have slice := subarray_append (encodedMetadata frameMagic frame ++ framePayload frame)
    (encodedMetadata frameEndMagic frame) []
  rwa [List.append_nil, List.length_append, encodedMetadata_length frameMagic_length,
    encodedMetadata_length frameEndMagic_length, List.append_assoc] at slice

/-- The envelope `r` is the frame of a version and a sequence whose encoding lies at an offset of the
bytes. -/
structure IsEnvelope (version : Version) (bytes : Bytes) (offset expectedSequence : Nat) (r : Envelope F) :
    Prop where
  version_eq : Frame.contractVersion r.frame = version
  sequence_eq : Frame.sequence r.frame = expectedSequence
  fits : Fits r.frame
  checksum_eq : r.checksum = (encoding r.frame).checksum
  frameEnd_eq : r.frameEnd = offset + (encoding r.frame).bytes.length
  inside : r.frameEnd ≤ bytes.length
  bytes_eq : subarray bytes offset r.frameEnd = (encoding r.frame).bytes

/-- The file reader takes the encoding of a frame out of a file. -/
theorem IsEnvelope.read {version : Version} {file : Bytes} {offset expectedSequence : Nat} {r : Envelope F}
    (h : IsEnvelope version file offset expectedSequence r) :
    readEnvelopeAt version file offset file.length expectedSequence = some r := by
  obtain ⟨rfl, rfl, ⟨positive, small⟩, checksum, frameEnd, inside, bytes⟩ := h
  obtain ⟨checksum', frame, frameEnd'⟩ := r
  dsimp only at *
  subst checksum
  rw [encoding_length] at frameEnd
  subst frameEnd
  have small32 : (framePayload frame).length < 2 ^ 32 := lt_of_le_of_lt small (by decide)
  have header := encoding_header frame
  have payload := encoding_payload frame
  have footer := encoding_footer frame
  rw [← bytes, subarray_subarray file (by omega), Nat.add_zero] at header
  rw [← bytes, subarray_subarray file (by omega), ← Nat.add_assoc] at payload
  rw [← bytes, subarray_subarray file (by omega), ← Nat.add_assoc, ← Nat.add_assoc, ← Nat.add_assoc] at footer
  have digest : (encodedChecksum frame).length = 32 := frameChecksum_length _ _ _ _
  simp only [readEnvelopeAt, Option.bind_eq_bind, Option.bind_eq_some_iff, ensure_eq_some_iff,
    exists_const, Option.some.injEq, readExact_eq_some_iff, parseCanonicalPayload_eq_some_iff]
  simp only [frameHeaderBytes, frameFooterBytes, frameMagic_length, frameEndMagic_length]
  refine ⟨by omega, _, ⟨by omega, header⟩, frameMetadata_magic frameMagic_length, ?_⟩
  rw [encodedMetadata, frameMetadata_payloadLength frameMagic_length small32,
    frameMetadata_sequence frameMagic_length (Frame.sequence_lt frame),
    frameMetadata_checksum frameMagic_length digest]
  refine ⟨⟨positive, small, rfl⟩, by omega, _, ⟨by omega, payload⟩, _, ⟨by omega, footer⟩, ?_⟩
  rw [encodedMetadata, frameMetadata_magic frameEndMagic_length,
    frameMetadata_payloadLength frameEndMagic_length small32,
    frameMetadata_sequence frameEndMagic_length (Frame.sequence_lt frame),
    frameMetadata_checksum frameEndMagic_length digest]
  refine ⟨⟨rfl, rfl, rfl⟩, ⟨rfl, rfl⟩, frame, ⟨rfl, rfl⟩, rfl, ?_⟩
  rw [encoding, Envelope.mk.injEq]
  exact ⟨rfl, rfl, by omega⟩

/-- What the file reader takes out of a file is an encoding. -/
theorem isEnvelope_of_read {version : Version} {file : Bytes} {offset expectedSequence : Nat}
    {r : Envelope F} (h : readEnvelopeAt version file offset file.length expectedSequence = some r) :
    IsEnvelope version file offset expectedSequence r := by
  simp only [readEnvelopeAt, Option.bind_eq_bind, Option.bind_eq_some_iff, ensure_eq_some_iff,
    exists_const, Option.some.injEq, readExact_eq_some_iff, parseCanonicalPayload_eq_some_iff] at h
  simp only [frameHeaderBytes, frameFooterBytes, frameMagic_length, frameEndMagic_length] at h
  obtain ⟨headerInside, header, ⟨-, headerBytes⟩, magic, ⟨positive, small, sequence⟩, frameEnd, payload,
    ⟨-, payloadBytes⟩, footer, ⟨-, footerBytes⟩, ⟨endMagic, sameLength, sameSequence⟩,
    ⟨sameChecksum, digest⟩, frame, ⟨rfl, rfl⟩, frameSequence, rfl⟩ := h
  have headerSize : header.length = 48 := by rw [← headerBytes, subarray_length (by omega)]; omega
  have footerSize : footer.length = 48 := by rw [← footerBytes, subarray_length (by omega)]; omega
  have length : readUInt32BE header 8 = (framePayload frame).length := by
    rw [← payloadBytes, subarray_length (by omega)]
    omega
  rw [length] at positive small frameEnd footerBytes payloadBytes sameLength digest
  rw [← frameSequence] at digest sameSequence sequence
  -- the header and the footer hold the metadata of the frame
  have headerFields : header = encodedMetadata frameMagic frame := by
    rw [eq_frameMetadata headerSize magic, length, ← frameSequence, digest]
    rfl
  have footerFields : footer = encodedMetadata frameEndMagic frame := by
    rw [eq_frameMetadata footerSize endMagic, sameLength, sameSequence, ← sameChecksum, digest]
    rfl
  have tail := subarray_add file
    (by omega : offset + 48 ≤ offset + 48 + (framePayload frame).length)
    (by omega : _ ≤ offset + 48 + (framePayload frame).length + 48)
  have whole := subarray_add file (by omega : offset ≤ offset + 48)
    (by omega : _ ≤ offset + 48 + (framePayload frame).length + 48)
  rw [payloadBytes, footerBytes, footerFields] at tail
  rw [headerBytes, headerFields, ← tail] at whole
  refine ⟨rfl, sequence, ⟨positive, small⟩, ?_, ?_, ?_, ?_⟩
  · rw [length, ← frameSequence]
    rfl
  · rw [encoding_length]
    dsimp only
    omega
  · dsimp only
    omega
  · rw [length]
    exact whole.symm

/-- The buffer reader accepts exactly the encodings of frames of its version. -/
theorem parseEnvelopeFromBuffer_eq_some_iff {version : Version} {bytes : Bytes}
    {offset expectedSequence : Nat} {r : Envelope F} :
    parseEnvelopeFromBuffer version bytes offset expectedSequence = some r ↔
      IsEnvelope version bytes offset expectedSequence r := by
  have same : parseEnvelopeFromBuffer version bytes offset expectedSequence =
      (readEnvelopeAt version bytes offset bytes.length expectedSequence : Option (Envelope F)) := by
    rw [readEnvelopeAt_eq, List.take_length]
  rw [same]
  exact ⟨isEnvelope_of_read, IsEnvelope.read⟩

/-! ### The codec -/

/-- An encoding inside a buffer is an envelope. -/
theorem isEnvelope_encoding {frame : F} (fits : Fits frame) (before after : Bytes) :
    IsEnvelope (Frame.contractVersion frame) (before ++ ((encoding frame).bytes ++ after)) before.length
      (Frame.sequence frame)
      ⟨(encoding frame).checksum, frame, before.length + (encoding frame).bytes.length⟩ where
  version_eq := rfl
  sequence_eq := rfl
  fits := fits
  checksum_eq := rfl
  frameEnd_eq := rfl
  inside := by
    simp only [List.length_append]
    omega
  bytes_eq := subarray_append _ _ _

theorem IsEnvelope.encoded {version : Version} {bytes : Bytes} {offset expectedSequence : Nat}
    {r : Envelope F} (h : IsEnvelope version bytes offset expectedSequence r) :
    ∃ encoded, encodeCanonicalFrame r.frame = some encoded ∧ encoded.checksum = r.checksum ∧
      encoded.bytes = subarray bytes offset r.frameEnd :=
  ⟨encoding r.frame, encodeCanonicalFrame_eq_some_iff.mpr ⟨h.fits, rfl⟩, h.checksum_eq.symm, h.bytes_eq.symm⟩

end Codec

/-- What the encoder and the two readers promise each other for a type of frames. -/
structure FrameCodec (F : Type) [Frame F] : Prop where
  /-- An encoded frame is read back by both readers, wherever it lies. -/
  read_encoded : ∀ (frame : F) (encoded : Encoded F), encodeCanonicalFrame frame = some encoded →
    ∀ before after : Bytes,
      parseEnvelopeFromBuffer (Frame.contractVersion frame) (before ++ (encoded.bytes ++ after)) before.length
          (Frame.sequence frame) =
        some ⟨encoded.checksum, frame, before.length + encoded.bytes.length⟩ ∧
      ∀ totalBytes, before.length + encoded.bytes.length ≤ totalBytes →
        readEnvelopeAt (Frame.contractVersion frame) (before ++ (encoded.bytes ++ after)) before.length
            totalBytes (Frame.sequence frame) =
          some ⟨encoded.checksum, frame, before.length + encoded.bytes.length⟩
  /-- What the buffer reader accepts is the encoding of what it returns. -/
  encoded_of_parse : ∀ version bytes offset expectedSequence (r : Envelope F),
    parseEnvelopeFromBuffer version bytes offset expectedSequence = some r →
      ∃ encoded, encodeCanonicalFrame r.frame = some encoded ∧ encoded.checksum = r.checksum ∧
        encoded.bytes = subarray bytes offset r.frameEnd
  /-- What the file reader accepts is the encoding of what it returns. -/
  encoded_of_read : ∀ version file offset totalBytes expectedSequence (r : Envelope F),
    readEnvelopeAt version file offset totalBytes expectedSequence = some r →
      ∃ encoded, encodeCanonicalFrame r.frame = some encoded ∧ encoded.checksum = r.checksum ∧
        encoded.bytes = subarray file offset r.frameEnd
  /-- Two byte ranges that are read as one frame are equal. -/
  parse_injective : ∀ version version' bytes bytes' offset offset' expectedSequence expectedSequence'
    (r r' : Envelope F), parseEnvelopeFromBuffer version bytes offset expectedSequence = some r →
      parseEnvelopeFromBuffer version' bytes' offset' expectedSequence' = some r' → r.frame = r'.frame →
        subarray bytes offset r.frameEnd = subarray bytes' offset' r'.frameEnd
  /-- The readers accept the same bytes with the same result. -/
  same_reader : ∀ version file offset totalBytes expectedSequence,
    (readEnvelopeAt version file offset totalBytes expectedSequence : Option (Envelope F)) =
      parseEnvelopeFromBuffer version (file.take totalBytes) offset expectedSequence

theorem frameCodec_of_frame (F : Type) [Frame F] : FrameCodec F where
  read_encoded frame encoded h before after := by
    obtain ⟨fits, rfl⟩ := encodeCanonicalFrame_eq_some_iff.mp h
    have parsed := parseEnvelopeFromBuffer_eq_some_iff.mpr (isEnvelope_encoding fits before after)
    refine ⟨parsed, fun totalBytes inside => ?_⟩
    have split : (before ++ ((encoding frame).bytes ++ after)).take totalBytes =
        before ++ ((encoding frame).bytes ++
          after.take (totalBytes - (before.length + (encoding frame).bytes.length))) := by
      rw [← List.append_assoc, List.take_append, List.take_of_length_le (by rwa [List.length_append]),
        List.length_append, List.append_assoc]
    rw [readEnvelopeAt_eq, split]
    exact parseEnvelopeFromBuffer_eq_some_iff.mpr (isEnvelope_encoding fits before _)
  encoded_of_parse version bytes offset expectedSequence r h :=
    (parseEnvelopeFromBuffer_eq_some_iff.mp h).encoded
  encoded_of_read version file offset totalBytes expectedSequence r h := by
    rw [readEnvelopeAt_eq] at h
    have envelope := parseEnvelopeFromBuffer_eq_some_iff.mp h
    have inside : r.frameEnd ≤ totalBytes := envelope.inside.trans (List.length_take_le _ _)
    rw [← subarray_take file _ inside]
    exact envelope.encoded
  parse_injective version version' bytes bytes' offset offset' expectedSequence expectedSequence' r r'
      h h' same := by
    rw [(parseEnvelopeFromBuffer_eq_some_iff.mp h).bytes_eq, (parseEnvelopeFromBuffer_eq_some_iff.mp h').bytes_eq,
      same]
  same_reader := readEnvelopeAt_eq

/-- Frames of both families, in both versions, are read back from exactly their encodings. -/
theorem frameCodec : FrameCodec DeltaFrame ∧ FrameCodec CheckpointFrame :=
  ⟨frameCodec_of_frame DeltaFrame, frameCodec_of_frame CheckpointFrame⟩

/-! ### Two frames -/

theorem operation_isOpaqueId : IsOpaqueId (js "operation") := by decide

theorem storage_isOpaqueId : IsOpaqueId (js "storage") := by decide

theorem object_isCanonical : canonicalObject (.object []) = some (.object []) := rfl

theorem one_isSequence : 1 ≤ 1 ∧ 1 ≤ maxFrameCount := by decide

theorem one_isRevision : 0 < 1 ∧ 1 < 2 ^ 64 := by decide

/-- The first frame of a ledger. -/
def provisionFrame : DeltaFrame := .prepared {
  contractVersion := .v3
  kind := .provision
  operationId := ⟨js "operation", operation_isOpaqueId⟩
  previousChecksum := none
  request := ⟨.object [], object_isCanonical⟩
  sequence := ⟨1, one_isSequence⟩
  stateRevision := ⟨1, one_isRevision⟩
  storageId := ⟨js "storage", storage_isOpaqueId⟩
  storageStateBefore := none }

theorem zeros_isSha256 : IsSha256 (List.replicate 64 48) := by decide

theorem three_isCheckpointSequence : 1 ≤ 3 ∧ 3 ≤ maxUint32 := by decide

theorem one_isCount : 1 ≤ maxUint32 := by decide

/-- The last frame of a checkpoint with one operation. -/
def finishFrame : CheckpointFrame := .finish {
  contractVersion := .v2
  generation := ⟨1, one_isRevision⟩
  operationCount := ⟨1, one_isCount⟩
  previousChecksum := some ⟨List.replicate 64 48, zeros_isSha256⟩
  sequence := ⟨3, three_isCheckpointSequence⟩
  stateChecksum := ⟨List.replicate 64 48, zeros_isSha256⟩
  stateRevision := ⟨1, one_isRevision.2⟩
  storageCount := ⟨1, one_isCount⟩ }

theorem provisionFrame_length : (framePayload provisionFrame).length = 202 := by decide +kernel

theorem finishFrame_length : (framePayload finishFrame).length = 300 := by decide +kernel

/-- Both readers find the frame between two other bytes. -/
def ReadBack {F : Type} [Frame F] (frame : F) (length : Nat) : Prop :=
  ∃ encoded, encodeCanonicalFrame frame = some encoded ∧ encoded.bytes.length = length ∧
    parseEnvelopeFromBuffer (Frame.contractVersion frame) ([7] ++ (encoded.bytes ++ [8])) 1 (Frame.sequence frame) =
      some ⟨encoded.checksum, frame, 1 + length⟩ ∧
    readEnvelopeAt (Frame.contractVersion frame) ([7] ++ (encoded.bytes ++ [8])) 1 (1 + length)
      (Frame.sequence frame) = some ⟨encoded.checksum, frame, 1 + length⟩

theorem FrameCodec.readBack {F : Type} [Frame F] (codec : FrameCodec F) {frame : F} (fits : Fits frame) :
    ReadBack frame (96 + (framePayload frame).length) := by
  have encodes := encodeCanonicalFrame_eq_some_iff.mpr ⟨fits, rfl⟩
  obtain ⟨parsed, read⟩ := codec.read_encoded frame (encoding frame) encodes [7] [8]
  rw [encoding_length] at parsed read
  exact ⟨encoding frame, encodes, encoding_length frame, parsed, read _ (Nat.le_refl _)⟩

/-- A frame of each family, in either version. -/
theorem frameCodec_readBack : ReadBack provisionFrame 298 ∧ ReadBack finishFrame 396 := by
  have provisionFits : Fits provisionFrame := by
    unfold Fits
    rw [provisionFrame_length]
    decide
  have finishFits : Fits finishFrame := by
    unfold Fits
    rw [finishFrame_length]
    decide
  have provision := frameCodec.1.readBack provisionFits
  have finish := frameCodec.2.readBack finishFits
  rw [provisionFrame_length] at provision
  rw [finishFrame_length] at finish
  exact ⟨provision, finish⟩

end PortableCodex.ProviderState
