import PortableCodex.ProviderState.Ledger

/-!
What an advance does to the head: an append counts one frame and one revision up, a rotation one
generation, and a rotation is only proposed for a ledger that has frames.
-/

namespace PortableCodex.ProviderState

open Js

/-- The head of an appended frame. -/
structure Appended (before after : LedgerHead) : Prop where
  contractVersion : after.contractVersion = before.contractVersion
  anchorRevision : after.anchorRevision.val = before.anchorRevision.val + 1
  generation : after.generation = before.generation
  stateRevision : after.stateRevision.val = before.stateRevision.val + 1
  baseHeadChecksum : after.baseHeadChecksum = before.baseHeadChecksum
  checkpointStateRevision : after.checkpointStateRevision = before.checkpointStateRevision
  checkpointFrameCount : after.checkpointFrameCount = before.checkpointFrameCount
  checkpointChecksum : after.checkpointChecksum = before.checkpointChecksum
  checkpointBytes : after.checkpointBytes = before.checkpointBytes
  frameCount : after.frameCount.val = before.frameCount.val + 1
  lastChecksum : after.lastChecksum ≠ none
  ledgerBytes : before.ledgerBytes.val < after.ledgerBytes.val

/-- The head of a new generation. -/
structure Rotated (before after : LedgerHead) : Prop where
  contractVersion : after.contractVersion = before.contractVersion
  anchorRevision : after.anchorRevision.val = before.anchorRevision.val + 1
  generation : after.generation.val = before.generation.val + 1
  stateRevision : after.stateRevision = before.stateRevision
  hasFrames : before.frameCount.val ≠ 0
  checkpointStateRevision : after.checkpointStateRevision = before.stateRevision
  frameCount : after.frameCount.val = 0
  lastChecksum : after.lastChecksum = after.checkpointChecksum
  ledgerBytes : after.ledgerBytes.val = 0
  baseHeadChecksum : after.baseHeadChecksum = some (headChecksum before)

theorem incrementNonnegativeUint64_eq_some {n next : Nat} (h : incrementNonnegativeUint64 n = some next) :
    next = n + 1 := by
  simp only [incrementNonnegativeUint64, Option.ite_none_right_eq_some, Option.some.injEq] at h
  exact h.2.symm

/-! ### Heads and their ledgers -/

/-- A ledger has bytes if and only if it has frames. -/
theorem LedgerHead.ledgerBytes_eq_zero_iff (head : LedgerHead) :
    head.ledgerBytes.val = 0 ↔ head.frameCount.val = 0 := by
  obtain ⟨-, -, frames, shape⟩ := head.consistent
  by_cases first : head.generation.val = 0
  · rw [if_pos first] at shape
    by_cases fresh : head.stateRevision.val = 0
    · rw [if_pos fresh] at shape
      obtain ⟨-, -, noFrames, -, noBytes⟩ := shape
      exact iff_of_true noBytes noFrames
    · rw [if_neg fresh] at shape
      obtain ⟨-, -, someFrames, -, someBytes⟩ := shape
      exact iff_of_false someBytes.ne' someFrames.ne'
  · rw [if_neg first] at shape
    obtain ⟨-, -, -, -, -, active⟩ := shape
    by_cases noFrames : head.frameCount.val = 0
    · rw [if_pos noFrames] at active
      exact iff_of_true active.1 noFrames
    · rw [if_neg noFrames] at active
      exact iff_of_false active.ne' noFrames

/-- The checkpoint of a later generation. -/
theorem LedgerHead.laterGeneration {head : LedgerHead} (later : head.generation.val ≠ 0) :
    head.IsLaterGeneration := by
  obtain ⟨-, -, -, shape⟩ := head.consistent
  rwa [if_neg later] at shape

/-! ### Appends -/

/-- What is encoded for an event is its frame behind the ledger. -/
theorem encodeDeltaEvent_frame {head : LedgerHead} {event : DeltaEvent} {encoded : Encoded DeltaFrame}
    (h : encodeDeltaEvent head event = some encoded) :
    ∃ inside stateRevision, nextRevision head.stateRevision = some stateRevision ∧
      encoded = encoding (event.frame head.contractVersion head.lastChecksum
        ⟨head.frameCount.val + 1, inside⟩ stateRevision) := by
  simp only [encodeDeltaEvent, Option.dite_none_right_eq_some, Option.bind_eq_bind,
    Option.bind_eq_some_iff] at h
  obtain ⟨inside, stateRevision, revision, frame, normalized, encodes⟩ := h
  obtain ⟨-, rfl⟩ := encodeCanonicalFrame_eq_some_iff.mp encodes
  have version : head.contractVersion = (event.frame head.contractVersion head.lastChecksum
      ⟨head.frameCount.val + 1, inside⟩ stateRevision).contractVersion := by cases event <;> rfl
  have same := normalizeDeltaFrame_json .held (event.frame head.contractVersion head.lastChecksum
    ⟨head.frameCount.val + 1, inside⟩ stateRevision)
  rw [← version] at same
  obtain rfl := Option.some.inj (same.symm.trans normalized)
  exact ⟨inside, stateRevision, revision, rfl⟩

/-- The frame of an event goes on from the head. -/
theorem encodeDeltaEvent_linked {head : LedgerHead} {event : DeltaEvent} {encoded : Encoded DeltaFrame}
    (h : encodeDeltaEvent head event = some encoded) :
    encoded.frame.contractVersion = head.contractVersion ∧
      encoded.frame.previousChecksum = head.lastChecksum := by
  obtain ⟨inside, stateRevision, -, rfl⟩ := encodeDeltaEvent_frame h
  cases event <;> exact ⟨rfl, rfl⟩

theorem encodeDeltaEvent_eq_some {head : LedgerHead} {event : DeltaEvent} {encoded : Encoded DeltaFrame}
    (h : encodeDeltaEvent head event = some encoded) :
    encoded = encoding encoded.frame ∧ encoded.frame.sequence.val = head.frameCount.val + 1 ∧
      encoded.frame.stateRevision.val = head.stateRevision.val + 1 := by
  obtain ⟨inside, stateRevision, revision, rfl⟩ := encodeDeltaEvent_frame h
  have next : stateRevision.val = head.stateRevision.val + 1 := by
    simp only [nextRevision, Option.bind_eq_bind, Option.bind_eq_some_iff, Option.dite_none_right_eq_some,
      Option.some.injEq] at revision
    obtain ⟨_, increment, _, rfl⟩ := revision
    exact incrementNonnegativeUint64_eq_some increment
  refine ⟨rfl, ?_, ?_⟩
  · cases event <;> rfl
  · cases event <;> exact next

/-- An encoded event fits an empty ledger. -/
theorem encodeDeltaEvent_length {head : LedgerHead} {event : DeltaEvent} {encoded : Encoded DeltaFrame}
    (h : encodeDeltaEvent head event = some encoded) :
    0 < encoded.bytes.length ∧ encoded.bytes.length ≤ maxLedgerBytes := by
  obtain ⟨same, -, -⟩ := encodeDeltaEvent_eq_some h
  rw [same]
  constructor
  · rw [encoding_length]
    omega
  · exact (encoding_length_le encoded.frame.within).trans (by decide)

theorem appendedHead_eq_some {expectedHead nextHead : LedgerHead} {event : DeltaEvent}
    {encoded : Encoded DeltaFrame} (encodes : encodeDeltaEvent expectedHead event = some encoded)
    (h : appendedHead expectedHead encoded = some nextHead) : Appended expectedHead nextHead := by
  obtain ⟨-, sequence, revision⟩ := encodeDeltaEvent_eq_some encodes
  obtain ⟨positive, -⟩ := encodeDeltaEvent_length encodes
  simp only [appendedHead, Option.bind_eq_bind, Option.bind_eq_some_iff,
    Option.dite_none_right_eq_some] at h
  obtain ⟨anchorRevision, increment, _, h⟩ := h
  obtain rfl := incrementNonnegativeUint64_eq_some increment
  obtain ⟨record, consistent⟩ := nextHead
  obtain rfl := ledgerHead_eq_some h
  exact ⟨rfl, rfl, rfl, revision, rfl, rfl, rfl, rfl, rfl, sequence, Option.some_ne_none _,
    Nat.lt_add_of_pos_right positive⟩

/-- The head behind an encoded event is accepted. -/
theorem appendedHead_isSome {head : LedgerHead} {event : DeltaEvent} {encoded : Encoded DeltaFrame}
    (encodes : encodeDeltaEvent head event = some encoded) (room : CanAdvance head)
    (fits : head.ledgerBytes.val + encoded.bytes.length ≤ maxLedgerBytes) :
    ∃ nextHead, appendedHead head encoded = some nextHead := by
  obtain ⟨-, sequence, revision⟩ := encodeDeltaEvent_eq_some encodes
  obtain ⟨positive, -⟩ := encodeDeltaEvent_length encodes
  obtain ⟨ordered, sum, frames, shape⟩ := head.consistent
  have bound : head.anchorRevision.val + 1 < 2 ^ 64 := room
  rw [appendedHead, incrementNonnegativeUint64, if_pos (by omega)]
  simp only [Option.bind_eq_bind, Option.bind_some]
  rw [dif_pos ⟨bound, fits⟩, ledgerHead, dif_pos]
  · exact ⟨_, rfl⟩
  · refine ⟨?_, ?_, ?_, ?_⟩
    · show head.checkpointStateRevision.val ≤ encoded.frame.stateRevision.val
      omega
    · show head.anchorRevision.val + 1 = head.generation.val + encoded.frame.stateRevision.val
      omega
    · show encoded.frame.stateRevision.val - head.checkpointStateRevision.val = encoded.frame.sequence.val
      omega
    · by_cases first : head.generation.val = 0
      · have noCheckpoint : head.NoCheckpoint := by
          rw [if_pos first] at shape
          split at shape
          · exact shape.2.1
          · exact shape.2.1
        have fresh : ¬ encoded.frame.stateRevision.val = 0 := by omega
        refine (if_pos first).mpr ((if_neg fresh).mpr ⟨?_, noCheckpoint, ?_, Option.some_ne_none _, ?_⟩)
        · show head.anchorRevision.val + 1 = encoded.frame.stateRevision.val
          omega
        · show 0 < encoded.frame.sequence.val
          omega
        · show 0 < head.ledgerBytes.val + encoded.bytes.length
          omega
      · obtain ⟨base, count, checksum, bytes, -⟩ := head.laterGeneration first
        refine (if_neg first).mpr ⟨base, count, checksum, bytes, Option.some_ne_none _, ?_⟩
        have someFrames : ¬ encoded.frame.sequence.val = 0 := by omega
        refine (if_neg someFrames).mpr ?_
        show 0 < head.ledgerBytes.val + encoded.bytes.length
        omega

theorem appendDeltaEvent_appended {before after : GenerationCache} {event : DeltaEvent}
    (h : appendDeltaEvent before event = some after) : Appended before.head after.head := by
  simp only [appendDeltaEvent, Option.bind_eq_bind, Option.bind_eq_some_iff, Option.some.injEq] at h
  obtain ⟨encoded, encodes, -, -, nextHead, appended, state, -, rfl⟩ := h
  exact appendedHead_eq_some encodes appended

theorem mem_appendAdvance {cache before after : GenerationCache} {event : DeltaEvent}
    (h : (before, after) ∈ appendAdvance cache event) :
    before = cache ∧ appendDeltaEvent cache event = some after := by
  unfold appendAdvance at h
  split at h
  · cases h
  · rename_i next appended
    cases List.mem_singleton.mp h
    exact ⟨rfl, appended⟩

/-! ### Rotations -/

/-- Only a ledger with frames is rotated first. -/
theorem rotatesFirst_hasFrames {policy : RotationPolicy} {cache : GenerationCache} {event : DeltaEvent}
    (h : rotatesFirst policy cache event = some true) : cache.head.frameCount.val ≠ 0 := by
  intro empty
  have noBytes := cache.head.ledgerBytes_eq_zero_iff.mpr empty
  unfold rotatesFirst at h
  split at h
  · rename_i full
    rw [empty] at full
    exact absurd full (by decide)
  · obtain ⟨preview, encodes, requires⟩ := Option.bind_eq_some_iff.mp h
    obtain ⟨-, fits⟩ := encodeDeltaEvent_length encodes
    rw [Option.some.injEq, eventRequiresRotation, if_neg, if_pos empty] at requires
    · cases requires
    · rintro (full | full)
      · rw [empty] at full
        exact absurd full (by decide)
      · omega

theorem rotation_head {expectedHead : LedgerHead} {state : GenerationState} {result : Rotation}
    (h : rotation expectedHead state = some result) :
    ∃ generation checkpoint, nextGeneration expectedHead = some generation ∧
      rotatedHead expectedHead (revisionOf generation) checkpoint = some result.head := by
  simp only [rotation, Option.bind_eq_bind, Option.bind_eq_some_iff, Option.some.injEq] at h
  obtain ⟨-, -, generation, following, checkpoint, -, head, rotated, loaded, -, _, -, snapshot, -, _, -,
    rfl⟩ := h
  exact ⟨generation, checkpoint, following, rotated⟩

/-- The head that a rotation builds: the next generation, without frames. -/
theorem rotation_record {expectedHead : LedgerHead} {state : GenerationState} {result : Rotation}
    (h : rotation expectedHead state = some result) :
    ∃ (anchorRevision generation : Uint64) (checkpoint : CheckpointResult),
      anchorRevision.val = expectedHead.anchorRevision.val + 1 ∧ generation.val = expectedHead.generation.val + 1 ∧
      result.head.toHeadRecord = {
        contractVersion := expectedHead.contractVersion
        anchorRevision
        generation
        stateRevision := expectedHead.stateRevision
        baseHeadChecksum := some (headChecksum expectedHead)
        checkpointStateRevision := expectedHead.stateRevision
        checkpointFrameCount := checkpoint.checkpointFrameCount
        checkpointChecksum := some checkpoint.checkpointChecksum
        checkpointBytes := checkpoint.checkpointBytes
        frameCount := ⟨0, Nat.zero_le _⟩
        lastChecksum := some checkpoint.checkpointChecksum
        ledgerBytes := ⟨0, Nat.zero_le _⟩ } := by
  obtain ⟨generation, checkpoint, following, head⟩ := rotation_head h
  simp only [nextGeneration, Option.bind_eq_bind, Option.bind_eq_some_iff, Option.dite_none_right_eq_some,
    Option.some.injEq] at following
  obtain ⟨next, increment, bound, rfl⟩ := following
  obtain rfl := incrementNonnegativeUint64_eq_some increment
  simp only [rotatedHead, Option.bind_eq_bind, Option.bind_eq_some_iff,
    Option.dite_none_right_eq_some] at head
  obtain ⟨anchorRevision, increment, small, head⟩ := head
  obtain rfl := incrementNonnegativeUint64_eq_some increment
  exact ⟨⟨_, small⟩, ⟨_, bound.2⟩, checkpoint, rfl, rfl, ledgerHead_eq_some head⟩

theorem rotateGeneration_rotated {before after : GenerationCache} (hasFrames : before.head.frameCount.val ≠ 0)
    (h : rotateGeneration before = some after) : Rotated before.head after.head := by
  obtain ⟨result, rotated, same⟩ := Option.bind_eq_some_iff.mp h
  obtain rfl := Option.some.inj same
  obtain ⟨anchorRevision, generation, checkpoint, anchored, following, record⟩ := rotation_record rotated
  constructor
  case hasFrames => exact hasFrames
  all_goals
    dsimp only
    rw [record]
  · exact anchored
  · exact following

/-! ### Advances -/

/-- Every proposed advance is an append or the rotation of a ledger with frames. -/
theorem advances_cases {policy : RotationPolicy} {cache before after : GenerationCache} {event : DeltaEvent}
    (h : (before, after) ∈ advances policy cache event) :
    Appended before.head after.head ∨ Rotated before.head after.head := by
  unfold advances at h
  split at h
  · cases h
  · obtain ⟨rfl, appended⟩ := mem_appendAdvance h
    exact .inl (appendDeltaEvent_appended appended)
  · rename_i first
    split at h
    · cases h
    · rename_i rotated rotates
      rcases List.mem_cons.mp h with here | later
      · cases here
        exact .inr (rotateGeneration_rotated (rotatesFirst_hasFrames first) rotates)
      · obtain ⟨rfl, appended⟩ := mem_appendAdvance later
        exact .inl (appendDeltaEvent_appended appended)

/-- An advance starts from the cache or from the one before it. -/
theorem advances_version {policy : RotationPolicy} {cache before after : GenerationCache}
    {event : DeltaEvent} (h : (before, after) ∈ advances policy cache event) :
    before.head.contractVersion = cache.head.contractVersion ∧
      after.head.contractVersion = cache.head.contractVersion := by
  unfold advances at h
  split at h
  · cases h
  · obtain ⟨rfl, appended⟩ := mem_appendAdvance h
    exact ⟨rfl, (appendDeltaEvent_appended appended).contractVersion⟩
  · rename_i first
    split at h
    · cases h
    · rename_i rotated rotates
      have same := (rotateGeneration_rotated (rotatesFirst_hasFrames first) rotates).contractVersion
      rcases List.mem_cons.mp h with here | later
      · cases here
        exact ⟨rfl, same⟩
      · obtain ⟨rfl, appended⟩ := mem_appendAdvance later
        exact ⟨same, (appendDeltaEvent_appended appended).contractVersion.trans same⟩

/-- A reachable cache has the version it started with. -/
theorem ReachableCache.contractVersion {version : Version} {cache : GenerationCache}
    (h : ReachableCache version cache) : cache.head.contractVersion = version := by
  induction h with
  | genesis => rfl
  | advanced _ step ih => exact (advances_version step).2.trans ih

/-! ### What is appended is read back -/

/-- The cached state is what its files hold. -/
def Loaded (cache : GenerationCache) : Prop :=
  parseActiveLedger cache.ledger cache.head cache.checkpointState = some cache.state

theorem readActiveFrames_append {version : Version} {bytes : Bytes} {count sequence : Nat}
    {reader final : ActiveReader} (h : readActiveFrames version bytes count sequence reader = some final)
    (tail : Bytes) : readActiveFrames version (bytes ++ tail) count sequence reader = some final := by
  induction count generalizing sequence reader with
  | zero => exact h
  | succ count ih =>
      obtain ⟨parsed, read, h⟩ := Option.bind_eq_some_iff.mp h
      obtain ⟨_, linked, h⟩ := Option.bind_eq_some_iff.mp h
      obtain ⟨⟨record, state⟩, applied, rest⟩ := Option.bind_eq_some_iff.mp h
      have envelope := parseEnvelopeFromBuffer_eq_some_iff.mp read
      have longer : parseEnvelopeFromBuffer version (bytes ++ tail) reader.offset sequence = some parsed := by
        refine parseEnvelopeFromBuffer_eq_some_iff.mpr { envelope with inside := ?_, bytes_eq := ?_ }
        · rw [List.length_append]
          exact Nat.le_add_right_of_le envelope.inside
        · rw [← subarray_take _ _ envelope.inside, List.take_left, envelope.bytes_eq]
      exact read_then longer (read_then linked (read_then applied (ih rest)))

theorem applied_contractVersion {state next : GenerationState} {frame : DeltaFrame} {checksum : Checksum}
    {sequence : Nat} {record : Operation} (h : applyDeltaFrame state frame checksum sequence = some (record, next)) :
    next.contractVersion = state.contractVersion := by
  obtain ⟨-, kind⟩ := applyDeltaFrame_eq_some_iff.mp h
  cases kind <;> rfl

theorem applied_stateRevision {state next : GenerationState} {frame : DeltaFrame} {checksum : Checksum}
    {sequence : Nat} {record : Operation} (h : applyDeltaFrame state frame checksum sequence = some (record, next)) :
    next.stateRevision = revisionOf frame.stateRevision := by
  obtain ⟨-, kind⟩ := applyDeltaFrame_eq_some_iff.mp h
  cases kind <;> rfl

/-- What every applied frame keeps holds behind the frames that were read. -/
theorem readActiveFrames_invariant {P : GenerationState → Prop}
    (keeps : ∀ {state next frame checksum sequence record},
      applyDeltaFrame state frame checksum sequence = some (record, next) → P state → P next)
    {version : Version} {bytes : Bytes} {count sequence : Nat} {reader final : ActiveReader}
    (h : readActiveFrames version bytes count sequence reader = some final) (holds : P reader.state) :
    P final.state := by
  induction count generalizing sequence reader with
  | zero =>
      obtain rfl := Option.some.inj h
      exact holds
  | succ count ih =>
      obtain ⟨parsed, read, h⟩ := Option.bind_eq_some_iff.mp h
      obtain ⟨_, linked, h⟩ := Option.bind_eq_some_iff.mp h
      obtain ⟨⟨record, state⟩, applied, rest⟩ := Option.bind_eq_some_iff.mp h
      exact ih rest (keeps applied holds)

theorem readActiveFrames_contractVersion {version : Version} {bytes : Bytes} {count sequence : Nat}
    {reader final : ActiveReader} (h : readActiveFrames version bytes count sequence reader = some final) :
    final.state.contractVersion = reader.state.contractVersion := by
  have keeps {state next : GenerationState} {frame : DeltaFrame} {checksum : Checksum} {sequence : Nat}
      {record : Operation} (applied : applyDeltaFrame state frame checksum sequence = some (record, next))
      (same : state.contractVersion = reader.state.contractVersion) :
      next.contractVersion = reader.state.contractVersion :=
    (applied_contractVersion applied).trans same
  let P (state : GenerationState) : Prop := state.contractVersion = reader.state.contractVersion
  exact @readActiveFrames_invariant P keeps _ _ _ _ _ _ h rfl

theorem readActiveFrames_succ {version : Version} {bytes : Bytes} {count sequence : Nat}
    {reader : ActiveReader} :
    readActiveFrames version bytes (count + 1) sequence reader =
      (readActiveFrames version bytes count sequence reader).bind
        (readActiveFrames version bytes 1 (sequence + count)) := by
  induction count generalizing sequence reader with
  | zero => rfl
  | succ count ih =>
      rw [readActiveFrames, readActiveFrames]
      simp only [Option.bind_eq_bind, Option.bind_assoc]
      have place : sequence + (count + 1) = sequence + 1 + count := by omega
      rw [place]
      refine Option.bind_congr fun parsed _ => Option.bind_congr fun _ _ => Option.bind_congr fun applied _ => ?_
      exact ih

/-- What the head says of an appended frame. -/
theorem appendedHead_written {head nextHead : LedgerHead} {encoded : Encoded DeltaFrame}
    (h : appendedHead head encoded = some nextHead) :
    nextHead.ledgerBytes.val = head.ledgerBytes.val + encoded.bytes.length ∧
      nextHead.contractVersion = head.contractVersion ∧
      nextHead.frameCount.val = encoded.frame.sequence.val ∧
      nextHead.checkpointChecksum = head.checkpointChecksum ∧
      nextHead.lastChecksum = some encoded.checksum ∧
      nextHead.stateRevision = revisionOf encoded.frame.stateRevision := by
  simp only [appendedHead, Option.bind_eq_bind, Option.bind_eq_some_iff,
    Option.dite_none_right_eq_some] at h
  obtain ⟨_, -, _, built⟩ := h
  rw [ledgerHead_eq_some built]
  exact ⟨rfl, rfl, rfl, rfl, rfl, rfl⟩

/-- A frame behind the ledger that the state accepts is appended. -/
theorem appendDeltaEvent_of_applied {cache : GenerationCache} {event : DeltaEvent}
    {encoded : Encoded DeltaFrame} {nextHead : LedgerHead} {record : Operation} {next : GenerationState}
    (loaded : Loaded cache) (encodes : encodeDeltaEvent cache.head event = some encoded)
    (head : appendedHead cache.head encoded = some nextHead)
    (linked : encoded.frame.previousChecksum = cache.head.lastChecksum)
    (applied : applyDeltaFrame cache.state encoded.frame encoded.checksum encoded.frame.sequence.val =
      some (record, next)) :
    appendDeltaEvent cache event =
      some { cache with head := nextHead, ledger := cache.ledger ++ encoded.bytes, state := next } := by
  obtain ⟨same, sequence, revision⟩ := encodeDeltaEvent_eq_some encodes
  obtain ⟨bytes, version, count, checkpoint, last, stateRevision⟩ := appendedHead_written head
  simp only [Loaded, parseActiveLedger, Option.bind_eq_bind, Option.bind_eq_some_iff, ensure_eq_some_iff,
    exists_const, Option.some.injEq] at loaded
  obtain ⟨sameVersion, ⟨-, length⟩, reader, read, ⟨offset, checksum, -⟩, state⟩ := loaded
  obtain ⟨follows, -⟩ := applyDeltaFrame_eq_some_iff.mp applied
  have total : (cache.ledger ++ encoded.bytes).length = nextHead.ledgerBytes.val := by
    rw [List.length_append, length, bytes]
  -- the frame is read behind the others
  have version_eq : cache.head.contractVersion = Frame.contractVersion encoded.frame := by
    have stateVersion : reader.state.contractVersion = cache.head.contractVersion := by
      rw [← sameVersion]
      exact readActiveFrames_contractVersion read
    rw [← stateVersion, state]
    exact follows.1
  have fits : Fits encoded.frame := fits_of_within encoded.frame.within
  have envelope := isEnvelope_encoding fits cache.ledger []
  have parsed := parseEnvelopeFromBuffer_eq_some_iff.mpr envelope
  rw [List.append_nil, ← version_eq, ← same] at parsed
  have lastFrame : readActiveFrames cache.head.contractVersion (cache.ledger ++ encoded.bytes) 1
      (1 + cache.head.frameCount.val) reader = some {
        state := next, checksum := some encoded.checksum
        offset := cache.ledger.length + encoded.bytes.length } := by
    have place : 1 + cache.head.frameCount.val = encoded.frame.sequence.val := by omega
    rw [← state] at applied
    rw [length, ← offset] at parsed
    rw [place]
    refine read_then parsed (read_then (ensure_pos ?_) (read_then applied ?_))
    · rw [linked, checksum]
    · rw [offset, length]
      rfl
  have frames : readActiveFrames nextHead.contractVersion (cache.ledger ++ encoded.bytes)
      nextHead.frameCount.val 1
      { state := cache.checkpointState, checksum := nextHead.checkpointChecksum, offset := 0 } = some {
        state := next, checksum := some encoded.checksum
        offset := cache.ledger.length + encoded.bytes.length } := by
    rw [version, count, sequence, checkpoint, readActiveFrames_succ, readActiveFrames_append read]
    exact lastFrame
  have nextRevision : next.stateRevision = nextHead.stateRevision :=
    (applied_stateRevision applied).trans stateRevision.symm
  have within : nextHead.ledgerBytes.val ≤ maxLedgerBytes := nextHead.ledgerBytes.property
  have parses : parseActiveLedger (cache.ledger ++ encoded.bytes) nextHead cache.checkpointState =
      some next := by
    refine read_then (ensure_pos ?_) (read_then (ensure_pos ?_) (read_then frames
      (read_then (ensure_pos ?_) rfl)))
    · rw [version, sameVersion]
    · exact ⟨total ▸ within, total⟩
    · refine ⟨?_, last.symm, nextRevision⟩
      rw [← total, List.length_append]
  exact read_then encodes (read_then (ensure_pos (bytes ▸ within)) (read_then head (read_then parses rfl)))

/-! ### A first event -/

/-- The event that leads to the frame. -/
def DeltaFrame.event : DeltaFrame → DeltaEvent
  | .prepared frame =>
      .prepared frame.kind frame.operationId frame.request frame.storageId frame.storageStateBefore
  | .committed frame =>
      .committed frame.expectedStorage frame.operationId frame.preparedChecksum frame.result frame.storageState

theorem DeltaFrame.event_frame (frame : DeltaFrame) :
    frame.event.frame frame.contractVersion frame.previousChecksum frame.sequence frame.stateRevision = frame := by
  cases frame <;> rfl

/-- The prepare of a first storage as an event. -/
def openingEvent (version : Version) : DeltaEvent := (DeltaFrame.prepared (firstPrepared version)).event

theorem openingEvent_encoded (version : Version) :
    encodeDeltaEvent (genesisCache version).head (openingEvent version) =
      some (encoding (DeltaFrame.prepared (firstPrepared version))) := by
  have revision : nextRevision (genesisCache version).head.stateRevision = some ⟨1, by decide⟩ := rfl
  refine read_then revision (read_then ?_ (encodeCanonicalFrame_delta _))
  exact normalizeDeltaFrame_json .held (.prepared (firstPrepared version))

end PortableCodex.ProviderState
