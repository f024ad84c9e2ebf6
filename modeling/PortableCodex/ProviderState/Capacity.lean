import PortableCodex.ProviderState.LedgerLaws
import PortableCodex.ProviderState.Rebase

/-!
An append does not run out of room.

The head, the frame and the checkpoint each have limits of their own, checked in different places.
`Backed` is what every reachable cache keeps, and from it every check that stands before the ledger is
read back is passed: the preview is encoded, the rotation it asks for goes through, and the frame
fits behind the ledger that is then active. What remains are the ends of the counters (`Exhausted`).
-/

namespace PortableCodex.ProviderState

open Js

/-- A counter of the head is at its end, or the state has more entries than a checkpoint counts. -/
def Exhausted (cache : GenerationCache) : Prop :=
  cache.head.stateRevision.val = 2 ^ 64 - 1 ∨ cache.head.anchorRevision.val = 2 ^ 64 - 1 ∨
    cache.head.generation.val = 2 ^ 64 - 1 ∨
    ∃ snapshot, checkpointArrays cache.state = some snapshot ∧
      2 ^ 32 - 1 < snapshot.operations.length + snapshot.storages.length + 2

theorem canAdvance_of_not_exhausted {cache : GenerationCache} (left : ¬ Exhausted cache) :
    CanAdvance cache.head := by
  have bound := cache.head.anchorRevision.property
  unfold CanAdvance
  by_contra full
  apply left
  exact .inr (.inl (by omega))

/-! ### What a reachable cache keeps -/

/-- The cached state is what the files hold, and its checkpoint is a state that was reached. -/
structure Backed (cache : GenerationCache) : Prop where
  checkpoint : Reached cache.checkpointState
  loaded : Loaded cache

/-- What the reader of a ledger says of the state it returns. -/
theorem parseActiveLedger_reads {bytes : Bytes} {head : LedgerHead} {checkpointState state : GenerationState}
    (h : parseActiveLedger bytes head checkpointState = some state) :
    Anchors head state ∧ (Reached checkpointState → Reached state) := by
  simp only [parseActiveLedger, Option.bind_eq_bind, Option.bind_eq_some_iff, ensure_eq_some_iff,
    exists_const, Option.some.injEq] at h
  obtain ⟨version, -, reader, read, ⟨-, -, revision⟩, rfl⟩ := h
  refine ⟨⟨?_, revision.symm⟩, ?_⟩
  · rw [← version]
    exact (readActiveFrames_contractVersion read).symm
  · exact readActiveFrames_invariant (fun applied reached => reached.applied applied) read

section Backed

variable {cache before after : GenerationCache}

theorem Backed.anchors (h : Backed cache) : Anchors cache.head cache.state :=
  (parseActiveLedger_reads h.loaded).1

theorem Backed.reached (h : Backed cache) : Reached cache.state :=
  (parseActiveLedger_reads h.loaded).2 h.checkpoint

theorem backed_genesis (version : Version) : Backed (genesisCache version) where
  checkpoint := reached_empty version
  loaded := by cases version <;> rfl

theorem Backed.appended (h : Backed before) {event : DeltaEvent}
    (appends : appendDeltaEvent before event = some after) : Backed after := by
  simp only [appendDeltaEvent, Option.bind_eq_bind, Option.bind_eq_some_iff, Option.some.injEq] at appends
  obtain ⟨encoded, -, -, -, nextHead, -, state, parsed, rfl⟩ := appends
  exact ⟨h.checkpoint, parsed⟩

/-- A new generation starts with an empty ledger, and its chain with the checkpoint. -/
theorem rotateGeneration_empty (rotates : rotateGeneration before = some after) :
    after.head.frameCount.val = 0 ∧ after.head.ledgerBytes.val = 0 ∧
      after.head.checkpointChecksum = after.head.lastChecksum := by
  obtain ⟨result, rotated, same⟩ := Option.bind_eq_some_iff.mp rotates
  obtain rfl := Option.some.inj same
  obtain ⟨_, _, _, -, -, record⟩ := rotation_record rotated
  dsimp only
  rw [record]
  exact ⟨rfl, rfl, rfl⟩

theorem Backed.rotated (h : Backed before) (rotates : rotateGeneration before = some after) : Backed after := by
  obtain ⟨noFrames, noBytes, checksum⟩ := rotateGeneration_empty rotates
  obtain ⟨result, rotated, same⟩ := Option.bind_eq_some_iff.mp rotates
  obtain rfl := Option.some.inj same
  obtain ⟨snapshot, facts⟩ := rotation_eq_some h.reached.invariant.keyed h.anchors rotated
  have version : result.state.contractVersion = result.head.contractVersion :=
    facts.contractVersion.trans facts.anchors.version.symm
  have revision : result.state.stateRevision = result.head.stateRevision :=
    facts.stateRevision.trans facts.anchors.stateRevision.symm
  refine ⟨h.reached.rotated facts, ?_⟩
  show parseActiveLedger [] result.head result.state = some result.state
  dsimp only at noFrames noBytes checksum
  unfold parseActiveLedger
  rw [noFrames, noBytes]
  exact read_then (ensure_pos version) (read_then (ensure_pos ⟨Nat.zero_le _, rfl⟩)
    (read_then rfl (read_then (ensure_pos ⟨rfl, checksum, revision⟩) rfl)))

theorem Backed.advanced (h : Backed cache) {policy : RotationPolicy} {event : DeltaEvent}
    (proposal : (before, after) ∈ advances policy cache event) : Backed after := by
  unfold advances at proposal
  split at proposal
  · cases proposal
  · obtain ⟨rfl, appended⟩ := mem_appendAdvance proposal
    exact h.appended appended
  · split at proposal
    · cases proposal
    · rename_i rotated rotates
      rcases List.mem_cons.mp proposal with here | later
      · cases here
        exact h.rotated rotates
      · obtain ⟨rfl, appended⟩ := mem_appendAdvance later
        exact (h.rotated rotates).appended appended

theorem ReachableCache.backed {version : Version} (h : ReachableCache version cache) : Backed cache := by
  induction h with
  | genesis => exact backed_genesis _
  | advanced _ proposal ih => exact ih.advanced proposal

end Backed

/-! ### Heads -/

/-- The bounds that `canonicalLedgerHead` keeps. -/
structure HeadBounds (head : LedgerHead) : Prop where
  accepted : canonicalLedgerHead head.json = some head
  anchorRevision : head.anchorRevision.val = head.generation.val + head.stateRevision.val
  frameCount : head.frameCount.val = head.stateRevision.val - head.checkpointStateRevision.val
  frameCount_le : head.frameCount.val ≤ 65535
  ledgerBytes_le : head.ledgerBytes.val ≤ 64 * 1024 * 1024

theorem LedgerHead.bounds (head : LedgerHead) : HeadBounds head where
  accepted := canonicalLedgerHead_reads .held head
  anchorRevision := head.consistent.2.1
  frameCount := head.consistent.2.2.1.symm
  frameCount_le := head.frameCount.property
  ledgerBytes_le := head.ledgerBytes.property

/-- An event behind a ledger that has a place for it is encoded. -/
theorem encodeDeltaEvent_isSome {head : LedgerHead} (event : DeltaEvent)
    (place : head.frameCount.val < maxFrameCount) (room : head.stateRevision.val + 1 < 2 ^ 64) :
    ∃ encoded, encodeDeltaEvent head event = some encoded := by
  have inside : 1 ≤ head.frameCount.val + 1 ∧ head.frameCount.val + 1 ≤ maxFrameCount := by omega
  have revision : nextRevision head.stateRevision = some ⟨head.stateRevision.val + 1, by omega⟩ := by
    rw [nextRevision, incrementNonnegativeUint64, if_pos (by omega)]
    exact dif_pos (by omega)
  have normalized := normalizeDeltaFrame_json .held (event.frame head.contractVersion head.lastChecksum
    ⟨head.frameCount.val + 1, inside⟩ ⟨head.stateRevision.val + 1, by omega⟩)
  have version : (event.frame head.contractVersion head.lastChecksum ⟨head.frameCount.val + 1, inside⟩
      ⟨head.stateRevision.val + 1, by omega⟩).contractVersion = head.contractVersion := by
    cases event <;> rfl
  rw [version] at normalized
  unfold encodeDeltaEvent
  dsimp only
  rw [dif_pos inside]
  exact ⟨_, read_then revision (read_then normalized (encodeCanonicalFrame_delta _))⟩

/-! ### The closure -/

/-- Every check of `appendDeltaEvent` that stands before the ledger is read back is passed, and an event
that the state accepts is appended. -/
def Appendable (cache : GenerationCache) (event : DeltaEvent) : Prop :=
  ∃ encoded nextHead, encodeDeltaEvent cache.head event = some encoded ∧
    cache.head.ledgerBytes.val + encoded.bytes.length ≤ maxLedgerBytes ∧
    appendedHead cache.head encoded = some nextHead ∧ HeadBounds nextHead ∧
    ∀ record next,
      applyDeltaFrame cache.state encoded.frame encoded.checksum encoded.frame.sequence.val =
        some (record, next) →
      appendDeltaEvent cache event =
        some { cache with head := nextHead, ledger := cache.ledger ++ encoded.bytes, state := next }

section Closure

variable {cache : GenerationCache} {event : DeltaEvent} {policy : RotationPolicy}

theorem Backed.appendable (h : Backed cache) {encoded : Encoded DeltaFrame} (room : CanAdvance cache.head)
    (encodes : encodeDeltaEvent cache.head event = some encoded)
    (fits : cache.head.ledgerBytes.val + encoded.bytes.length ≤ maxLedgerBytes) : Appendable cache event := by
  obtain ⟨nextHead, head⟩ := appendedHead_isSome encodes room fits
  have linked := (encodeDeltaEvent_linked encodes).2
  refine ⟨encoded, nextHead, encodes, fits, head, nextHead.bounds, fun record next applied => ?_⟩
  exact appendDeltaEvent_of_applied h.loaded encodes head linked applied

/-- A cache that is not exhausted is rotated. -/
theorem Backed.rotates (h : Backed cache) (left : ¬ Exhausted cache) :
    ∃ rotated, rotateGeneration cache = some rotated := by
  obtain ⟨snapshot, arrays⟩ := h.reached.invariant.snapshots
  have capacity : WithinCapacity snapshot := by
    by_contra full
    apply left
    refine .inr (.inr (.inr ⟨snapshot, arrays, ?_⟩))
    exact Nat.lt_of_not_le full
  obtain ⟨result, rotated, -⟩ := h.reached.rotates h.anchors (canAdvance_of_not_exhausted left) arrays capacity
  exact ⟨_, read_then rotated rfl⟩

/-- Whatever the policy asks for, the event finds its place. -/
theorem Backed.closure (h : Backed cache) (left : ¬ Exhausted cache) :
    ∃ rotates active, rotatesFirst policy cache event = some rotates ∧
      (if rotates then rotateGeneration cache = some active else active = cache) ∧
      HeadBounds active.head ∧ (¬ Exhausted active → Appendable active event) := by
  have advance := canAdvance_of_not_exhausted left
  have revisions := cache.head.consistent.2.1
  have room : cache.head.stateRevision.val + 1 < 2 ^ 64 := by
    unfold CanAdvance at advance
    omega
  obtain ⟨rotated, rotates⟩ := h.rotates left
  obtain ⟨noFrames, noBytes, -⟩ := rotateGeneration_empty rotates
  -- behind an empty ledger every event fits
  have afterRotation : ¬ Exhausted rotated → Appendable rotated event := by
    intro more
    have advance := canAdvance_of_not_exhausted more
    have revisions := rotated.head.consistent.2.1
    have place : rotated.head.frameCount.val < maxFrameCount := noFrames ▸ by decide
    have bound : rotated.head.anchorRevision.val + 1 < 2 ^ 64 := advance
    obtain ⟨encoded, encodes⟩ := encodeDeltaEvent_isSome event place (by omega)
    have length := (encodeDeltaEvent_length encodes).2
    have fits : rotated.head.ledgerBytes.val + encoded.bytes.length ≤ maxLedgerBytes := by omega
    exact (h.rotated rotates).appendable advance encodes fits
  by_cases full : maxFrameCount ≤ cache.head.frameCount.val
  · refine ⟨true, rotated, ?_, by rwa [if_pos rfl], rotated.head.bounds, afterRotation⟩
    rw [rotatesFirst, if_pos full]
  · obtain ⟨preview, encodes⟩ := encodeDeltaEvent_isSome event (Nat.lt_of_not_le full) room
    have first : rotatesFirst policy cache event =
        some (eventRequiresRotation cache.head preview.bytes.length policy) := by
      rw [rotatesFirst, if_neg full, encodes]
      rfl
    cases requires : eventRequiresRotation cache.head preview.bytes.length policy with
    | true =>
      rw [requires] at first
      exact ⟨true, rotated, first, by rwa [if_pos rfl], rotated.head.bounds, afterRotation⟩
    | false =>
      rw [requires] at first
      refine ⟨false, cache, first, by rw [if_neg Bool.false_ne_true], cache.head.bounds, fun _ => ?_⟩
      have fits : cache.head.ledgerBytes.val + preview.bytes.length ≤ maxLedgerBytes := by
        by_contra large
        rw [eventRequiresRotation, if_pos (.inr (Nat.lt_of_not_le large))] at requires
        cases requires
      exact h.appendable advance encodes fits

end Closure

/-- A reachable provider has room for every event until a counter ends: its heads keep their bounds, its
checkpoint frames fit their payload, the rotation that an append asks for goes through, and nothing
before the event is applied refuses it. -/
theorem appendCapacity (version : Version) (cache : GenerationCache) (reachable : ReachableCache version cache) :
    HeadBounds cache.head ∧
    (∀ snapshot, checkpointArrays cache.state = some snapshot →
      ∀ generation baseHeadChecksum operationCount storageCount,
        ∀ body ∈ checkpointBodies cache.state generation baseHeadChecksum snapshot operationCount storageCount,
          ∀ previousChecksum sequence, ∃ frame, body previousChecksum sequence = some frame ∧
            encodeCanonicalFrame frame = some (encoding frame) ∧
            (framePayload frame).length ≤ 4 * 1024 * 1024) ∧
    ∀ policy event, ¬ Exhausted cache →
      ∃ rotates active, rotatesFirst policy cache event = some rotates ∧
        (if rotates then rotateGeneration cache = some active else active = cache) ∧
        HeadBounds active.head ∧ (¬ Exhausted active → Appendable active event) := by
  have backed := reachable.backed
  refine ⟨cache.head.bounds, ?_, fun policy event left => backed.closure left⟩
  intro snapshot arrays generation baseHeadChecksum operationCount storageCount body member previousChecksum sequence
  have writes := writes_checkpointBodies backed.reached.invariant.keyed arrays generation baseHeadChecksum
    operationCount storageCount body member
  obtain ⟨frame, made⟩ := writes previousChecksum sequence
  exact ⟨frame, made, encodeCanonicalFrame_checkpoint frame, (fits_of_within frame.within).2⟩

/-- No counter of a cache ends before its anchor revision, and a state of a few entries is counted. -/
theorem not_exhausted_of_sized {cache : GenerationCache} {count : Nat} (advance : CanAdvance cache.head)
    (keyed : Keyed cache.state) (sized : SizedBy count cache.state) (few : count ≤ maxFrameCount) :
    ¬ Exhausted cache := by
  have sum := cache.head.consistent.2.1
  unfold CanAdvance at advance
  rintro (ends | ends | ends | ⟨snapshot, arrays, many⟩)
  · omega
  · omega
  · omega
  · have capacity := sized.withinCapacity keyed few arrays
    unfold WithinCapacity maxUint32 at capacity
    omega

/-! ### A ledger of three frames -/

/-- A policy that never asks for a rotation of its own. -/
def patientPolicy : RotationPolicy where
  activeFrameCountWatermark := maxFrameCount
  activeLedgerBytesWatermark := maxLedgerBytes

theorem rotatesFirst_patient {cache : GenerationCache} {event : DeltaEvent} {encoded : Encoded DeltaFrame}
    (encodes : encodeDeltaEvent cache.head event = some encoded) (few : cache.head.frameCount.val + 1 < maxFrameCount)
    (fits : cache.head.ledgerBytes.val + encoded.bytes.length ≤ maxLedgerBytes) :
    rotatesFirst patientPolicy cache event = some false := by
  rw [rotatesFirst, if_neg (by omega), encodes]
  refine congrArg some ?_
  rw [eventRequiresRotation, if_neg (by omega)]
  split
  · rfl
  · exact decide_eq_false (by simp only [patientPolicy]; omega)

/-- A cache of generation 0 with a few frames. -/
structure Stands (cache : GenerationCache) (count : Nat) (lastChecksum : Option Checksum) : Prop where
  reachable : ReachableCache .v3 cache
  checkpointState : cache.checkpointState = genesisState
  generation : cache.head.generation.val = 0
  frameCount : cache.head.frameCount.val = count
  lastChecksum : cache.head.lastChecksum = lastChecksum
  ledgerBytes : cache.head.ledgerBytes.val ≤ count * (96 + framePayloadBound)

section Stands

variable {cache : GenerationCache} {count : Nat} {lastChecksum : Option Checksum}

theorem stands_genesis : Stands (genesisCache .v3) 0 none :=
  ⟨.genesis, rfl, rfl, rfl, rfl, Nat.zero_le _⟩

theorem Stands.stateRevision (h : Stands cache count lastChecksum) : cache.head.stateRevision.val = count := by
  obtain ⟨ordered, -, frames, shape⟩ := cache.head.consistent
  have start : cache.head.checkpointStateRevision.val = 0 := by
    rw [if_pos h.generation] at shape
    split at shape
    · exact shape.2.1.2.1
    · exact shape.2.1.2.1
  have := h.frameCount
  omega

theorem Stands.canAdvance (h : Stands cache count lastChecksum) (few : count < 8) : CanAdvance cache.head := by
  have sum := cache.head.consistent.2.1
  have revision := h.stateRevision
  have generation := h.generation
  unfold CanAdvance
  omega

/-- Eight frames fit the ledger, whatever they hold. -/
theorem Stands.fits (h : Stands cache count lastChecksum) (few : count < 8) {size : Nat}
    (bound : size ≤ 96 + framePayloadBound) :
    cache.head.ledgerBytes.val + size ≤ (count + 1) * (96 + framePayloadBound) ∧
      cache.head.ledgerBytes.val + size ≤ maxLedgerBytes := by
  have eight : 8 * (96 + framePayloadBound) ≤ maxLedgerBytes := by decide
  have most : (count + 1) * (96 + framePayloadBound) ≤ 8 * (96 + framePayloadBound) := Nat.mul_le_mul_right _ few
  have sum : cache.head.ledgerBytes.val + size ≤ (count + 1) * (96 + framePayloadBound) := by
    rw [Nat.succ_mul]
    exact Nat.add_le_add h.ledgerBytes bound
  exact ⟨sum, sum.trans (most.trans eight)⟩

/-- The frame that goes on from the ledger is what its event is encoded to. -/
theorem Stands.encodes (h : Stands cache count lastChecksum) (few : count < 8) {frame : DeltaFrame}
    (version : frame.contractVersion = .v3) (names : frame.previousChecksum = lastChecksum)
    (sequence : frame.sequence.val = count + 1) (revision : frame.stateRevision.val = count + 1) :
    encodeDeltaEvent cache.head frame.event = some (encoding frame) := by
  have place : cache.head.frameCount.val < maxFrameCount := by
    have eight : 8 ≤ maxFrameCount := by decide
    have := h.frameCount
    omega
  obtain ⟨encoded, encodes⟩ := encodeDeltaEvent_isSome frame.event place (by have := h.stateRevision; omega)
  obtain ⟨inside, stateRevision, -, same⟩ := encodeDeltaEvent_frame encodes
  have counted : (⟨cache.head.frameCount.val + 1, inside⟩ : Sequence) = frame.sequence :=
    Subtype.ext ((congrArg (· + 1) h.frameCount).trans sequence.symm)
  have revised : stateRevision = frame.stateRevision := by
    have next := (encodeDeltaEvent_eq_some encodes).2.2
    have own : encoded.frame.stateRevision = stateRevision := by
      rw [same]
      cases frame <;> rfl
    rw [own, h.stateRevision] at next
    exact Subtype.ext (next.trans revision.symm)
  rw [counted, revised, h.reachable.contractVersion, ← version, h.lastChecksum, ← names, frame.event_frame] at same
  rw [encodes, same]

/-- A frame that the state accepts is appended. -/
theorem Stands.append (h : Stands cache count lastChecksum) (few : count < 8) {frame : DeltaFrame}
    {record : Operation} {next : GenerationState} (version : frame.contractVersion = .v3)
    (names : frame.previousChecksum = lastChecksum) (sequence : frame.sequence.val = count + 1)
    (revision : frame.stateRevision.val = count + 1)
    (applied : applyDeltaFrame cache.state frame (deltaChecksum frame) (count + 1) = some (record, next)) :
    ∃ after, appendDeltaEvent cache frame.event = some after ∧ after.state = next ∧
      Stands after (count + 1) (some (deltaChecksum frame)) := by
  have encodes := h.encodes few version names sequence revision
  have length : (encoding frame).bytes.length ≤ 96 + framePayloadBound := encoding_length_le frame.within
  obtain ⟨small, fits⟩ := h.fits few length
  obtain ⟨encoded, nextHead, again, -, head, -, appends⟩ :=
    h.reachable.backed.appendable (h.canAdvance few) encodes fits
  obtain rfl := Option.some.inj (encodes.symm.trans again)
  rw [← sequence] at applied
  have appended := appends record next applied
  have grown := appendedHead_eq_some encodes head
  obtain ⟨bytes, -, -, -, last, -⟩ := appendedHead_written head
  have place : cache.head.frameCount.val + 1 < maxFrameCount := by
    have nine : 8 + 1 ≤ maxFrameCount := by decide
    have := h.frameCount
    omega
  have direct := rotatesFirst_patient encodes place fits
  have proposed : (cache, { cache with head := nextHead, ledger := cache.ledger ++ (encoding frame).bytes, state := next }) ∈
      advances patientPolicy cache frame.event := by
    rw [advances, direct]
    dsimp only
    rw [appendAdvance, appended]
    exact List.mem_singleton_self _
  refine ⟨_, appended, rfl, .advanced h.reachable proposed, h.checkpointState, ?_, ?_, last, ?_⟩
  · exact (congrArg Subtype.val grown.generation).trans h.generation
  · exact grown.frameCount.trans (congrArg (· + 1) h.frameCount)
  · show nextHead.ledgerBytes.val ≤ _
    rw [bytes]
    exact small

end Stands

/-- The caches behind the provision of the first storage and the prepare of its attach. -/
structure AttachLedger (first second third : GenerationCache) : Prop where
  opened : appendDeltaEvent (genesisCache .v3) (openingEvent .v3) = some first
  provisioned : appendDeltaEvent first (DeltaFrame.committed (firstCommitted .v3 provisionChecksum)).event = some second
  prepared : appendDeltaEvent second (DeltaFrame.prepared (attachPrepared .v3 provisionedChecksum)).event = some third
  one : Stands first 1 (some provisionChecksum)
  two : Stands second 2 (some provisionedChecksum)
  three : Stands third 3 (some attachChecksum)
  state : third.state = attachState

theorem exists_attachLedger : ∃ first second third, AttachLedger first second third := by
  obtain ⟨first, opened, firstState, one⟩ :=
    stands_genesis.append (by decide) rfl rfl rfl rfl (firstPending_applied .v3 provisionChecksum)
  have commits := firstProvisioned_applied .v3 provisionChecksum provisionedChecksum
  rw [← firstState] at commits
  obtain ⟨second, provisioned, secondState, two⟩ := one.append (by decide) rfl rfl rfl rfl commits
  have prepares := attachPending_applied .v3 provisionChecksum provisionedChecksum attachChecksum
  rw [← secondState] at prepares
  obtain ⟨third, prepared, thirdState, three⟩ := two.append (by decide) rfl rfl rfl rfl prepares
  exact ⟨first, second, third, opened, provisioned, prepared, one, two, three, thirdState⟩

/-- The commit of the attach asks for a rotation behind three frames, and finds its place after it. -/
theorem appendCapacity_attach : ∃ cache active, ReachableCache .v3 cache ∧ cache.state = attachState ∧
    rotatesFirst { activeFrameCountWatermark := 3, activeLedgerBytesWatermark := maxLedgerBytes } cache
      attachCommit.event = some true ∧
    rotateGeneration cache = some active ∧ HeadBounds active.head ∧ Appendable active attachCommit.event := by
  obtain ⟨_, _, cache, ledger⟩ := exists_attachLedger
  obtain ⟨count, sized, few⟩ := attachState_sized
  have three := ledger.three
  have backed := three.reachable.backed
  have advance := three.canAdvance (by decide)
  have left : ¬ Exhausted cache :=
    not_exhausted_of_sized advance backed.reached.invariant.keyed (ledger.state ▸ sized) few
  obtain ⟨rotates, active, first, reached, bounds, appendable⟩ := (appendCapacity .v3 cache three.reachable).2.2
    { activeFrameCountWatermark := 3, activeLedgerBytesWatermark := maxLedgerBytes } attachCommit.event left
  have asked : rotates = true := by
    have place : ¬ maxFrameCount ≤ cache.head.frameCount.val := by
      rw [three.frameCount]
      decide
    rw [rotatesFirst, if_neg place, three.encodes (by decide) rfl rfl rfl rfl] at first
    refine (Option.some.inj first).symm.trans ?_
    rw [eventRequiresRotation]
    split
    · rfl
    · rw [three.frameCount]
      rfl
  subst asked
  rw [if_pos rfl] at reached
  refine ⟨cache, active, three.reachable, ledger.state, first, reached, bounds, appendable ?_⟩
  -- the counters of the new generation are still far from their ends
  have frames : cache.head.frameCount.val ≠ 0 := by
    rw [three.frameCount]
    decide
  have turned := rotateGeneration_rotated frames reached
  have next := backed.rotated reached
  obtain ⟨result, rotated, same⟩ := Option.bind_eq_some_iff.mp reached
  obtain rfl := Option.some.inj same
  obtain ⟨again, made, transparent⟩ := attachState_run.rotates (ledger.state ▸ backed.anchors) advance attach_capacity
  rw [ledger.state] at rotated
  obtain rfl := Option.some.inj (rotated.symm.trans made)
  have room : CanAdvance result.head := by
    have anchored : result.head.anchorRevision.val = cache.head.anchorRevision.val + 1 := turned.anchorRevision
    have sum := cache.head.consistent.2.1
    rw [three.stateRevision, three.generation] at sum
    unfold CanAdvance
    omega
  exact not_exhausted_of_sized room next.reached.invariant.keyed (transparent.sizedBy rfl sized) few

end PortableCodex.ProviderState
