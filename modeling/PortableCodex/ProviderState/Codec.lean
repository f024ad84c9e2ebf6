import PortableCodex.ProviderState.FrameLaws

/-!
Frames as bytes.

`encodeCanonicalFrame` wraps the canonical text of a frame in a header and a footer that repeat
its length, its sequence and its checksum. Two readers take a frame out of bytes:
`parseEnvelopeFromBuffer` from a buffer and `readEnvelopeAt` from a file.

`parseEnvelopeFromBuffer_eq_some_iff` says that the buffer reader accepts exactly the encodings of
frames, and `readEnvelopeAt_eq` that the file reader is the buffer reader on the bytes of the file.
-/

namespace PortableCodex.ProviderState

open Js

/-- A type of frames, with its normalizers and their laws. -/
class Frame (F : Type) where
  contractVersion : F → Version
  sequence : F → Nat
  json : F → JsValue
  normalize : Version → JsValue → Option F
  sequence_lt : ∀ frame, sequence frame < 2 ^ 32
  normalize_json : ∀ frame, normalize (contractVersion frame) (reparse (json frame)) = some frame
  normalize_version : ∀ {version value frame}, normalize version value = some frame →
    contractVersion frame = version

instance : Frame DeltaFrame where
  contractVersion := DeltaFrame.contractVersion
  sequence frame := frame.sequence.val
  json := DeltaFrame.json
  normalize := normalizeDeltaFrame
  sequence_lt frame := lt_of_le_of_lt frame.sequence.property.2 (by decide)
  normalize_json := normalizeDeltaFrame_json .parsed
  normalize_version := normalizeDeltaFrame_version

instance : Frame CheckpointFrame where
  contractVersion := CheckpointFrame.contractVersion
  sequence frame := frame.sequence.val
  json := CheckpointFrame.json
  normalize := normalizeCheckpointFrame
  sequence_lt frame := lt_of_le_of_lt frame.sequence.property.2 (by decide)
  normalize_json := normalizeCheckpointFrame_json .parsed
  normalize_version := normalizeCheckpointFrame_version

def maxFramePayloadBytes : Nat := 4 * 1024 * 1024

def frameMagic : Bytes := [0x89, 0x46, 0x49, 0x50, 0x0d, 0x0a, 0x1a, 0x0a]
def frameEndMagic : Bytes := [0x8a, 0x45, 0x4e, 0x44, 0x0d, 0x0a, 0x1a, 0x0a]

abbrev frameHeaderBytes : Nat := 48
abbrev frameFooterBytes : Nat := 48

/-- A domain separator: its text and a NUL. -/
def domain (text : String) : Bytes := encodeUtf8 (js text ++ [0])

/-- `format.frameDomain` -/
def Version.frameDomain : Version → Bytes
  | .v2 => domain "portable-codex/filesystem-image-provider-state/frame/v2"
  | .v3 => domain "portable-codex/filesystem-image-provider-state/frame/v3"

def frameChecksum (payload : Bytes) (payloadLength sequence : Nat) (version : Version) : Bytes :=
  sha256 (version.frameDomain ++ (uint32BE payloadLength ++ uint32BE sequence) ++ payload)

/-- A digest as text. -/
def hexChecksum (message : Bytes) : Checksum :=
  ⟨hex (sha256 message), by rw [hex_length, sha256_length], hex_all _⟩

def frameChecksumText (payload : Bytes) (payloadLength sequence : Nat) (version : Version) : Checksum :=
  hexChecksum (version.frameDomain ++ (uint32BE payloadLength ++ uint32BE sequence) ++ payload)

section Codec

variable {F : Type} [Frame F]

/-- An encoded frame. -/
structure Encoded (F : Type) where
  bytes : Bytes
  checksum : Checksum
  frame : F

/-- A frame read from bytes, and where it ends. -/
structure Envelope (F : Type) where
  checksum : Checksum
  frame : F
  frameEnd : Nat

/-- The canonical text of a frame as bytes. -/
def framePayload (frame : F) : Bytes := encodeUtf8 (canonicalString (Frame.json frame))

/-- The metadata of a header or a footer: its magic, and the length, sequence and checksum. -/
def frameMetadata (magic : Bytes) (payloadLength sequence : Nat) (checksum : Bytes) : Bytes :=
  magic ++ (uint32BE payloadLength ++ (uint32BE sequence ++ checksum))

def encodeCanonicalFrame (frame : F) : Option (Encoded F) := do
  let payload := framePayload frame
  ensure (0 < payload.length ∧ payload.length ≤ maxFramePayloadBytes)
  let sequence := Frame.sequence frame
  let version := Frame.contractVersion frame
  let checksum := frameChecksum payload payload.length sequence version
  let header := frameMetadata frameMagic payload.length sequence checksum
  let footer := frameMetadata frameEndMagic payload.length sequence checksum
  some {
    bytes := header ++ (payload ++ footer)
    checksum := frameChecksumText payload payload.length sequence version
    frame }

/-- `parseCanonicalPayload` with the normalizer of a version. -/
def parseCanonicalPayload (version : Version) (payload : Bytes) : Option F := do
  let text := decodeUtf8 payload
  ensure (encodeUtf8 text = payload)
  let parsed ← parseJson text
  let frame ← Frame.normalize version parsed
  ensure (canonicalString (Frame.json frame) = text)
  some frame

def parseEnvelopeFromBuffer (version : Version) (bytes : Bytes) (offset expectedSequence : Nat) :
    Option (Envelope F) := do
  ensure (frameHeaderBytes ≤ bytes.length - offset)
  ensure (subarray bytes offset (offset + frameMagic.length) = frameMagic)
  let payloadLength := readUInt32BE bytes (offset + frameMagic.length)
  let sequence := readUInt32BE bytes (offset + frameMagic.length + 4)
  ensure (0 < payloadLength ∧ payloadLength ≤ maxFramePayloadBytes ∧ sequence = expectedSequence)
  let payloadStart := offset + frameHeaderBytes
  let footerStart := payloadStart + payloadLength
  let frameEnd := footerStart + frameFooterBytes
  ensure (frameEnd ≤ bytes.length)
  ensure (subarray bytes footerStart (footerStart + frameEndMagic.length) = frameEndMagic ∧
    readUInt32BE bytes (footerStart + frameEndMagic.length) = payloadLength ∧
    readUInt32BE bytes (footerStart + frameEndMagic.length + 4) = sequence)
  let headerChecksum := subarray bytes (offset + frameMagic.length + 8) (offset + frameHeaderBytes)
  let footerChecksum := subarray bytes (footerStart + frameEndMagic.length + 8) frameEnd
  let payload := subarray bytes payloadStart footerStart
  let checksum := frameChecksum payload payloadLength sequence version
  ensure (headerChecksum = footerChecksum ∧ headerChecksum = checksum)
  let frame ← parseCanonicalPayload version payload
  ensure (Frame.sequence frame = sequence)
  some { checksum := frameChecksumText payload payloadLength sequence version, frame, frameEnd }

/-- `readExact`: the bytes of a file at a position, or a failure at its end. -/
def readExact (file : Bytes) (size position : Nat) : Option Bytes := do
  ensure (position + size ≤ file.length)
  some (subarray file position (position + size))

/-- `readEnvelopeAt` of a handle on a file with the given bytes. -/
def readEnvelopeAt (version : Version) (file : Bytes) (offset totalBytes expectedSequence : Nat) :
    Option (Envelope F) := do
  ensure (offset + frameHeaderBytes ≤ totalBytes)
  let header ← readExact file frameHeaderBytes offset
  ensure (subarray header 0 frameMagic.length = frameMagic)
  let payloadLength := readUInt32BE header frameMagic.length
  let sequence := readUInt32BE header (frameMagic.length + 4)
  ensure (0 < payloadLength ∧ payloadLength ≤ maxFramePayloadBytes ∧ sequence = expectedSequence)
  let payloadStart := offset + frameHeaderBytes
  let footerStart := payloadStart + payloadLength
  let frameEnd := footerStart + frameFooterBytes
  ensure (frameEnd ≤ totalBytes)
  let payload ← readExact file payloadLength payloadStart
  let footer ← readExact file frameFooterBytes footerStart
  ensure (subarray footer 0 frameEndMagic.length = frameEndMagic ∧
    readUInt32BE footer frameEndMagic.length = payloadLength ∧
    readUInt32BE footer (frameEndMagic.length + 4) = sequence)
  let headerChecksum := subarray header (frameMagic.length + 8) frameHeaderBytes
  let footerChecksum := subarray footer (frameEndMagic.length + 8) frameFooterBytes
  let checksum := frameChecksum payload payloadLength sequence version
  ensure (headerChecksum = footerChecksum ∧ headerChecksum = checksum)
  let frame ← parseCanonicalPayload version payload
  ensure (Frame.sequence frame = sequence)
  some { checksum := frameChecksumText payload payloadLength sequence version, frame, frameEnd }

end Codec

end PortableCodex.ProviderState
