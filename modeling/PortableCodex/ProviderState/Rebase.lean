import Mathlib.Data.Option.Basic
import Mathlib.Logic.Equiv.Basic
import PortableCodex.ProviderState.RotationLaws

/-!
Frames after a rotation.

A ledger continues at another place after a rotation: its sequences start again, and its first frame
names the checksum of the checkpoint. `rebase` moves later frames there. A moved frame has another
checksum, so the commits of the operations that are prepared among the later frames have to name the
new ones. `Rotates.transparent` says that a rotation is not seen otherwise: the moved frames are
accepted if and only if the frames are, and they reach the same state but for those checksums.
-/

namespace PortableCodex.ProviderState

open Js

/-! ### Replaying a ledger -/

/-- The checksum that a reader finds with a frame. -/
def deltaChecksum (frame : DeltaFrame) : Checksum := (encoding frame).checksum

/-- The frame loop of `parseActiveLedger`. -/
def replayLedger (state : GenerationState) (checksum : Option Checksum) (sequence : Nat) :
    List DeltaFrame → Option GenerationState
  | [] => some state
  | frame :: frames => do
      ensure (frame.previousChecksum = checksum)
      let (_, state) ← applyDeltaFrame state frame (deltaChecksum frame) sequence
      replayLedger state (some (deltaChecksum frame)) (sequence + 1) frames

/-- Frames that continue a ledger: their sequences count up from the given one, and each names the
checksum before it. -/
inductive Continues : Option Checksum → Nat → List DeltaFrame → Prop where
  | nil {checksum sequence} : Continues checksum sequence []
  | cons {checksum sequence frame frames} : frame.previousChecksum = checksum →
      frame.sequence.val = sequence → Continues (some (deltaChecksum frame)) (sequence + 1) frames →
      Continues checksum sequence (frame :: frames)

/-! ### Moving frames -/

/-- The frame at another place of a ledger. -/
def DeltaFrame.place (previousChecksum : Option Checksum) (sequence : Sequence) : DeltaFrame → DeltaFrame
  | .prepared frame => .prepared { frame with previousChecksum, sequence }
  | .committed frame => .committed { frame with previousChecksum, sequence }

/-- Frames at another place, with nothing but their places changed. -/
def relocate (checksum : Option Checksum) (sequence : Nat) : List DeltaFrame → Option (List DeltaFrame)
  | [] => some []
  | frame :: frames =>
      if inside : 1 ≤ sequence ∧ sequence ≤ maxFrameCount then do
        let moved := frame.place checksum ⟨sequence, inside⟩
        let rest ← relocate (some (deltaChecksum moved)) (sequence + 1) frames
        some (moved :: rest)
      else none

/-- How the checksums that the commits of an operation name are renamed. -/
abbrev Renaming := OpaqueId → Equiv.Perm Checksum

/-- A commit names the checksum of its prepare as renamed. -/
def DeltaFrame.rename (names : Renaming) : DeltaFrame → DeltaFrame
  | .prepared frame => .prepared frame
  | .committed frame =>
      .committed { frame with preparedChecksum := frame.preparedChecksum.map (names frame.operationId) }

/-- The renaming after a frame was moved: a prepare gets a new checksum. -/
def Renaming.after (names : Renaming) (frame moved : DeltaFrame) : Renaming :=
  match frame with
  | .prepared prepared =>
      Function.update names prepared.operationId (Equiv.swap (deltaChecksum frame) (deltaChecksum moved))
  | .committed _ => names

/-- Frames at another place, whose commits name the checksums there. -/
def rebase (names : Renaming) (checksum : Option Checksum) (sequence : Nat) :
    List DeltaFrame → Option (List DeltaFrame)
  | [] => some []
  | frame :: frames =>
      if inside : 1 ≤ sequence ∧ sequence ≤ maxFrameCount then do
        let moved := (frame.rename names).place checksum ⟨sequence, inside⟩
        let rest ← rebase (names.after frame moved) (some (deltaChecksum moved)) (sequence + 1) frames
        some (moved :: rest)
      else none

/-- Frames can be moved to the front of a ledger. -/
theorem rebase_of_continues {checksum : Option Checksum} {sequence next : Nat} {frames : List DeltaFrame}
    (continues : Continues checksum sequence frames) (positive : 1 ≤ next) (earlier : next ≤ sequence)
    (names : Renaming) (other : Option Checksum) : ∃ moved, rebase names other next frames = some moved := by
  induction continues generalizing names other next with
  | nil => exact ⟨[], rfl⟩
  | cons _ place _ ih =>
      rename_i frame frames _ _
      have inside : 1 ≤ next ∧ next ≤ maxFrameCount := by
        have := frame.sequence.property
        omega
      let placed := (frame.rename names).place other ⟨next, inside⟩
      obtain ⟨rest, moved⟩ := @ih (next + 1) (by omega) (by omega) (names.after frame placed)
        (some (deltaChecksum placed))
      refine ⟨placed :: rest, ?_⟩
      rw [rebase, dif_pos inside]
      exact Option.bind_eq_some_iff.mpr ⟨rest, moved, rfl⟩

/-! ### Two replays -/

/-- An operation with its checksum renamed. -/
def Operation.rename (names : Renaming) (operation : Operation) : Operation :=
  { operation with preparedChecksum := names operation.operationId operation.preparedChecksum }

/-- A state and the state of a rotated ledger, which has dropped some committed operations. -/
structure Mirrors (dropped : OpaqueId → Prop) (names : Renaming) (state other : GenerationState) : Prop where
  keyed : Keyed state
  version : other.contractVersion = state.contractVersion
  stateRevision : other.stateRevision = state.stateRevision
  storages : ∀ id, other.storages.get? id = state.storages.get? id
  origins : ∀ id, other.attachmentOrigins.get? id = state.attachmentOrigins.get? id
  kept : ∀ id, ¬ dropped id → other.operations.get? id = (state.operations.get? id).map (·.rename names)
  gone : ∀ id, dropped id → other.operations.get? id = none ∧
    ∀ operation, state.operations.get? id = some operation → operation.commit ≠ none

section Mirrors

variable {dropped : OpaqueId → Prop} {names : Renaming} {state other : GenerationState}

theorem Mirrors.pending (h : Mirrors dropped names state other) {id : OpaqueId} {operation : Operation} :
    Pending other id operation ↔ ∃ before, Pending state id before ∧ before.rename names = operation := by
  by_cases drop : dropped id
  · obtain ⟨absent, committed⟩ := h.gone id drop
    constructor
    · rintro ⟨found, -⟩
      rw [absent] at found
      cases found
    · rintro ⟨before, ⟨found, pending⟩, -⟩
      exact absurd pending (committed before found)
  · rw [Pending, h.kept id drop, Option.map_eq_some_iff]
    constructor
    · rintro ⟨⟨before, found, rfl⟩, pending⟩
      exact ⟨before, ⟨found, pending⟩, rfl⟩
    · rintro ⟨before, ⟨found, pending⟩, rfl⟩
      exact ⟨⟨before, found, rfl⟩, pending⟩

theorem Mirrors.prepares (h : Mirrors dropped names state other) {frame : PreparedFrame}
    (live : ¬ dropped frame.operationId) (previousChecksum : Option Checksum) (sequence : Sequence) :
    Prepares other { frame with previousChecksum, sequence } ↔ Prepares state frame := by
  have fresh : other.operations.get? frame.operationId = none ↔
      state.operations.get? frame.operationId = none := by
    rw [h.kept _ live, Option.map_eq_none_iff]
  have idle : (∀ id operation, other.operations.get? id = some operation → operation.commit = none →
        operation.storageId ≠ frame.storageId) ↔
      ∀ id operation, state.operations.get? id = some operation → operation.commit = none →
        operation.storageId ≠ frame.storageId := by
    constructor
    · intro idle id operation found pending
      have mirrored := (h.pending.mpr ⟨operation, ⟨found, pending⟩, rfl⟩).1
      exact idle id (operation.rename names) mirrored pending
    · intro idle id operation found pending
      obtain ⟨before, ⟨holds, waits⟩, rfl⟩ := h.pending.mp ⟨found, pending⟩
      exact idle id before holds waits
  constructor
  · rintro ⟨isFresh, isIdle, current, allowed⟩
    exact ⟨fresh.mp isFresh, idle.mp isIdle, (h.storages _).symm.trans current, allowed⟩
  · rintro ⟨isFresh, isIdle, current, allowed⟩
    exact ⟨fresh.mpr isFresh, idle.mpr isIdle, (h.storages _).trans current, allowed⟩

/-- The commit that a moved commit is. -/
def CommittedFrame.move (names : Renaming) (previousChecksum : Option Checksum) (sequence : Sequence)
    (frame : CommittedFrame) : CommittedFrame :=
  { frame with
    preparedChecksum := frame.preparedChecksum.map (names frame.operationId)
    previousChecksum
    sequence }

theorem Mirrors.commits (h : Mirrors dropped names state other) {frame : CommittedFrame} {operation : Operation} {origin : Option OpaqueId}
    (previousChecksum : Option Checksum) (sequence : Sequence) :
    Commits other (frame.move names previousChecksum sequence) operation origin ↔
      ∃ before, Commits state frame before origin ∧ before.rename names = operation := by
  have checksum (before : Operation) (id : before.operationId = frame.operationId) :
      frame.preparedChecksum.map (names frame.operationId) = some (before.rename names).preparedChecksum ↔
        frame.preparedChecksum = some before.preparedChecksum := by
    rw [Operation.rename, id, Option.map_eq_some_iff]
    constructor
    · rintro ⟨named, form, same⟩
      rw [form, (names frame.operationId).injective same]
    · intro form
      exact ⟨_, form, rfl⟩
  have origins (before : Operation) (storage : StorageState) :
      committedAttachmentOrigin other (before.rename names) storage =
        committedAttachmentOrigin state before storage :=
    committedAttachmentOrigin_congr h.origins rfl rfl rfl
  constructor
  · rintro ⟨found, pending, named, current, expected, sameStorage, transition, origin_eq⟩
    obtain ⟨before, ⟨holds, waits⟩, rfl⟩ := h.pending.mp ⟨found, pending⟩
    refine ⟨before, ⟨holds, waits, (checksum before (h.keyed.operations holds)).mp named,
      (h.storages _).symm.trans current, expected, sameStorage, transition, ?_⟩, rfl⟩
    rw [← origins]
    exact origin_eq
  · rintro ⟨before, ⟨found, pending, named, current, expected, sameStorage, transition, origin_eq⟩, rfl⟩
    refine ⟨(h.pending.mpr ⟨before, ⟨found, pending⟩, rfl⟩).1, pending,
      (checksum before (h.keyed.operations found)).mpr named, (h.storages _).trans current, expected,
      sameStorage, transition, ?_⟩
    rw [origins]
    exact origin_eq

theorem Operation.rename_update {operation : Operation} {id : OpaqueId} (ne : operation.operationId ≠ id)
    (permutation : Equiv.Perm Checksum) :
    operation.rename (Function.update names id permutation) = operation.rename names := by
  rw [Operation.rename, Function.update_of_ne ne, Operation.rename]

theorem Mirrors.prepare (h : Mirrors dropped names state other) {frame : PreparedFrame}
    (live : ¬ dropped frame.operationId) (previousChecksum : Option Checksum) (sequence : Sequence)
    (checksum moved : Checksum) :
    Mirrors dropped (Function.update names frame.operationId (Equiv.swap checksum moved))
      (state.prepare frame checksum) (other.prepare { frame with previousChecksum, sequence } moved) where
  keyed := {
    operations := by
      intro id operation found
      change (state.operations.set _ _).get? id = _ at found
      rw [JsMap.get?_set] at found
      split at found
      · rename_i same
        obtain rfl := Option.some.inj found
        exact same.symm
      · exact h.keyed.operations found
    storages := h.keyed.storages }
  version := h.version
  stateRevision := rfl
  storages := h.storages
  origins := h.origins
  kept := by
    intro id notDropped
    show (other.operations.set _ _).get? id = ((state.operations.set _ _).get? id).map _
    rw [JsMap.get?_set, JsMap.get?_set]
    split
    · rw [Option.map_some, Operation.rename]
      show _ = some { makePreparedRecord frame checksum with
        preparedChecksum := Function.update names frame.operationId (Equiv.swap checksum moved)
          frame.operationId checksum }
      rw [Function.update_self, Equiv.swap_apply_left]
      rfl
    · rename_i ne
      rw [h.kept id notDropped]
      refine Option.map_congr fun operation found => ?_
      refine (Operation.rename_update ?_ _).symm
      rw [h.keyed.operations (Option.mem_def.mp found)]
      exact ne
  gone := by
    intro id drop
    have ne : id ≠ frame.operationId := fun same => live (same ▸ drop)
    show (other.operations.set _ _).get? id = none ∧
      ∀ operation, (state.operations.set _ _).get? id = some operation → _
    rw [JsMap.get?_set_of_ne ne, JsMap.get?_set_of_ne ne]
    exact h.gone id drop

theorem Mirrors.complete (h : Mirrors dropped names state other) {frame : CommittedFrame}
    (live : ¬ dropped frame.operationId) {operation : Operation} {origin : Option OpaqueId}
    (accepted : Commits state frame operation origin) (previousChecksum : Option Checksum)
    (sequence : Sequence) :
    Mirrors dropped names (state.complete frame operation origin)
      (other.complete (frame.move names previousChecksum sequence) (operation.rename names) origin) where
  keyed := {
    operations := by
      intro id operation found
      change (state.operations.set _ _).get? id = _ at found
      rw [JsMap.get?_set] at found
      split at found
      · rename_i same
        obtain rfl := Option.some.inj found
        exact (h.keyed.operations accepted.found).trans same.symm
      · exact h.keyed.operations found
    storages := by
      intro id storage found
      change (state.storages.set _ _).get? id = _ at found
      rw [JsMap.get?_set] at found
      split at found
      · rename_i same
        obtain rfl := Option.some.inj found
        exact accepted.sameStorage.trans same.symm
      · exact h.keyed.storages found }
  version := h.version
  stateRevision := rfl
  storages := by
    intro id
    show (other.storages.set _ _).get? id = (state.storages.set _ _).get? id
    rw [JsMap.get?_set, JsMap.get?_set, h.storages]
    rfl
  origins := by
    intro id
    show (other.attachmentOrigins.set _ _).get? id = (state.attachmentOrigins.set _ _).get? id
    rw [JsMap.get?_set, JsMap.get?_set, h.origins]
    rfl
  kept := by
    intro id notDropped
    show (other.operations.set frame.operationId _).get? id =
      ((state.operations.set frame.operationId _).get? id).map _
    rw [JsMap.get?_set, JsMap.get?_set]
    split
    · rfl
    · exact h.kept id notDropped
  gone := by
    intro id drop
    have ne : id ≠ frame.operationId := fun same => live (same ▸ drop)
    show (other.operations.set frame.operationId _).get? id = none ∧
      ∀ operation, (state.operations.set frame.operationId _).get? id = some operation → _
    rw [JsMap.get?_set_of_ne ne, JsMap.get?_set_of_ne ne]
    exact h.gone id drop

/-- A frame is accepted if and only if the moved frame is, and the states go on mirroring each other. -/
theorem Mirrors.applied (h : Mirrors dropped names state other) {frame moved : DeltaFrame} {sequence : Nat}
    {previousChecksum : Option Checksum} {place : Sequence} (live : ¬ dropped frame.operationId)
    (follows : frame.sequence.val = sequence) (is : moved = (frame.rename names).place previousChecksum place) :
    Option.Rel (fun a b => Mirrors dropped (names.after frame moved) a.2 b.2)
      (applyDeltaFrame state frame (deltaChecksum frame) sequence)
      (applyDeltaFrame other moved (deltaChecksum moved) place.val) := by
  have same : Follows other moved place.val ↔ Follows state frame sequence := by
    subst is
    cases frame with
    | prepared frame =>
        exact and_congr (by rw [h.version]; rfl) (and_congr (iff_of_true rfl follows) (by rw [h.stateRevision]; rfl))
    | committed frame =>
        exact and_congr (by rw [h.version]; rfl) (and_congr (iff_of_true rfl follows) (by rw [h.stateRevision]; rfl))
  -- each side accepts what the other accepts
  have forward {record next} (accepted : applyDeltaFrame state frame (deltaChecksum frame) sequence =
      some (record, next)) : ∃ result, applyDeltaFrame other moved (deltaChecksum moved) place.val = some result ∧
        Mirrors dropped (names.after frame moved) next result.2 := by
    obtain ⟨order, step⟩ := applyDeltaFrame_eq_some_iff.mp accepted
    cases step with
    | prepared prepares =>
        rename_i frame
        subst is
        exact ⟨(_, _), applyDeltaFrame_eq_some_iff.mpr ⟨same.mpr order,
          .prepared ((h.prepares live previousChecksum place).mpr prepares)⟩,
          h.prepare live previousChecksum place _ _⟩
    | committed commits =>
        rename_i frame operation origin
        subst is
        exact ⟨(_, _), applyDeltaFrame_eq_some_iff.mpr ⟨same.mpr order,
          .committed ((h.commits previousChecksum place).mpr ⟨operation, commits, rfl⟩)⟩,
          h.complete live commits previousChecksum place⟩
  have backward {record next} (accepted : applyDeltaFrame other moved (deltaChecksum moved) place.val =
      some (record, next)) : ∃ result, applyDeltaFrame state frame (deltaChecksum frame) sequence = some result := by
    obtain ⟨order, step⟩ := applyDeltaFrame_eq_some_iff.mp accepted
    cases frame with
    | prepared frame =>
        subst is
        cases step with
        | prepared prepares =>
            exact ⟨_, applyDeltaFrame_eq_some_iff.mpr ⟨same.mp order,
              .prepared ((h.prepares live previousChecksum place).mp prepares)⟩⟩
    | committed frame =>
        subst is
        cases step with
        | committed commits =>
            rename_i operation origin
            have move := @Mirrors.commits _ _ _ _ h frame operation origin previousChecksum place
            obtain ⟨_, commits, -⟩ := move.mp commits
            exact ⟨_, applyDeltaFrame_eq_some_iff.mpr ⟨same.mp order, .committed commits⟩⟩
  cases first : applyDeltaFrame state frame (deltaChecksum frame) sequence with
  | some result =>
      obtain ⟨mirrored, accepted, mirrors⟩ := forward first
      rw [accepted]
      exact .some mirrors
  | none =>
      cases second : applyDeltaFrame other moved (deltaChecksum moved) place.val with
      | none => exact .none
      | some result =>
          obtain ⟨_, accepted⟩ := backward second
          rw [first] at accepted
          cases accepted

/-- The states that a replay and the replay of the moved frames reach mirror each other. -/
theorem Mirrors.replayed (h : Mirrors dropped names state other) {checksum previousChecksum : Option Checksum}
    {sequence next : Nat} {frames moved : List DeltaFrame} (continues : Continues checksum sequence frames)
    (live : ∀ frame ∈ frames, ¬ dropped frame.operationId)
    (is : rebase names previousChecksum next frames = some moved) :
    Option.Rel (fun a b => ∃ names, Mirrors dropped names a b) (replayLedger state checksum sequence frames)
      (replayLedger other previousChecksum next moved) := by
  induction continues generalizing names state other previousChecksum next moved with
  | nil =>
      cases is
      exact .some ⟨names, h⟩
  | cons previous place _ ih =>
      rename_i frame frames rest
      simp only [rebase, Option.dite_none_right_eq_some, Option.bind_eq_bind, Option.bind_eq_some_iff,
        Option.some.injEq] at is
      obtain ⟨inside, others, rebased, rfl⟩ := is
      have named : ((frame.rename names).place previousChecksum ⟨next, inside⟩).previousChecksum =
          previousChecksum := by cases frame <;> rfl
      have step := h.applied (live frame List.mem_cons_self) place
        (rfl : (frame.rename names).place previousChecksum ⟨next, inside⟩ = _)
      rw [replayLedger, replayLedger, ensure_pos previous, ensure_pos named]
      simp only [Option.bind_eq_bind, Option.bind_some]
      generalize applyDeltaFrame state frame _ _ = first at step ⊢
      generalize applyDeltaFrame other _ _ _ = second at step ⊢
      cases step with
      | none => exact .none
      | some mirrors =>
          exact ih mirrors (fun frame member => live frame (List.mem_cons_of_mem _ member)) rebased

end Mirrors

/-! ### Ledgers -/

theorem JsMap.size_set_le {K V : Type} [DecidableEq K] (m : JsMap K V) (key : K) (value : V) :
    (m.set key value).size ≤ m.size + 1 := by
  show (JsMap.setEntries _ _ _).length ≤ _
  unfold JsMap.setEntries
  split
  · rw [List.length_map]
    exact Nat.le_succ _
  · rw [List.length_append]
    exact le_rfl

/-- A state with so many operations and storages at most. -/
def SizedBy (count : Nat) (state : GenerationState) : Prop :=
  state.operations.size ≤ count ∧ state.storages.size ≤ count

theorem SizedBy.applied {count : Nat} {state next : GenerationState} {frame : DeltaFrame}
    {checksum : Checksum} {expectedSequence : Nat} {record : Operation} (h : SizedBy count state)
    (applied : applyDeltaFrame state frame checksum expectedSequence = some (record, next)) :
    SizedBy (count + 1) next := by
  obtain ⟨-, step⟩ := applyDeltaFrame_eq_some_iff.mp applied
  obtain ⟨operations, storages⟩ := h
  cases step with
  | prepared =>
      exact ⟨(JsMap.size_set_le _ _ _).trans (Nat.succ_le_succ operations), storages.trans (Nat.le_succ _)⟩
  | committed =>
      exact ⟨(JsMap.size_set_le _ _ _).trans (Nat.succ_le_succ operations),
        (JsMap.size_set_le _ _ _).trans (Nat.succ_le_succ storages)⟩

/-- A replayed ledger has as many frames as sequences, and its state is one of a run. -/
theorem replayLedger_run {version : Version} {records : List Operation} {state next : GenerationState}
    {checksum : Option Checksum} {sequence : Nat} {frames : List DeltaFrame} {count : Nat}
    (run : Run version records state) (sized : SizedBy count state) (bound : count + 1 = sequence)
    (h : replayLedger state checksum sequence frames = some next) :
    (∃ records, Run version records next) ∧ ∃ count, SizedBy count next ∧ count ≤ max (sequence - 1) maxFrameCount := by
  induction frames generalizing state checksum sequence records count with
  | nil =>
      cases h
      exact ⟨⟨records, run⟩, count, sized, le_max_of_le_left (by omega)⟩
  | cons frame frames ih =>
      simp only [replayLedger, Option.bind_eq_bind, Option.bind_eq_some_iff, ensure_eq_some_iff,
        exists_const] at h
      obtain ⟨-, ⟨record, after⟩, applied, rest⟩ := h
      obtain ⟨⟨-, place, -⟩, -⟩ := applyDeltaFrame_eq_some_iff.mp applied
      have inside := frame.sequence.property.2
      obtain ⟨reached, total, sized, limit⟩ :=
        ih (run.frame applied) (sized.applied applied) (by omega) rest
      refine ⟨reached, total, sized, limit.trans ?_⟩
      rw [max_eq_right (by omega)]
      exact le_max_right _ _

/-- The frames of a checkpoint are no more than the operations and the storages. -/
theorem SizedBy.withinCapacity {count : Nat} {state : GenerationState} {snapshot : CheckpointArrays}
    (h : SizedBy count state) (keyed : Keyed state) (few : count ≤ maxFrameCount)
    (arrays : checkpointArrays state = some snapshot) : WithinCapacity snapshot := by
  obtain ⟨_, -, operations, -⟩ := checkpointArrays_eq_some arrays
  have storages := (snapshot_of_checkpointArrays keyed arrays).storages_length
  have kept : snapshot.operations.length ≤ state.operations.size := by
    rw [operations, (sortById_perm _ _).length_eq]
    refine (List.length_filter_le _ _).trans ?_
    rw [JsMap.values, List.length_map, JsMap.size]
  have limit : maxFrameCount + maxFrameCount + 2 ≤ maxUint32 := by decide
  have := h.1
  have := h.2
  unfold WithinCapacity
  omega

/-! ### Transparency -/

/-- Two states with the same revision, storages and origins, and the same prepared operations but for
the checksums of their frames. -/
structure Agrees (state other : GenerationState) : Prop where
  stateRevision : other.stateRevision = state.stateRevision
  storages : ∀ id, other.storages.get? id = state.storages.get? id
  origins : ∀ id, other.attachmentOrigins.get? id = state.attachmentOrigins.get? id
  prepared : ∀ id operation checksum,
    (∃ after, Pending other id after ∧ { after with preparedChecksum := checksum } = operation) ↔
      ∃ before, Pending state id before ∧ { before with preparedChecksum := checksum } = operation

theorem Mirrors.agrees {dropped : OpaqueId → Prop} {names : Renaming} {state other : GenerationState}
    (h : Mirrors dropped names state other) : Agrees state other where
  stateRevision := h.stateRevision
  storages := h.storages
  origins := h.origins
  prepared := by
    intro id operation checksum
    constructor
    · rintro ⟨after, pending, rfl⟩
      obtain ⟨before, holds, rfl⟩ := h.pending.mp pending
      exact ⟨before, holds, rfl⟩
    · rintro ⟨before, holds, rfl⟩
      exact ⟨before.rename names, h.pending.mpr ⟨before, holds, rfl⟩, rfl⟩

/-- A committed operation that a rotation has dropped. -/
def Dropped (state rotated : GenerationState) (id : OpaqueId) : Prop :=
  (∃ operation, state.operations.get? id = some operation ∧ operation.commit ≠ none) ∧
    rotated.operations.get? id = none

/-- What a rotation keeps, now and for all later frames. -/
structure Transparent (expectedHead : LedgerHead) (state : GenerationState) (result : Rotation) : Prop where
  /-- The state is what its checkpoint loads. -/
  loaded : parseCheckpointStream result.checkpoint.bytes result.head = some result.state
  stateRevision : result.state.stateRevision = state.stateRevision
  storages : ∀ id, result.state.storages.get? id = state.storages.get? id
  origins : ∀ id, result.state.attachmentOrigins.get? id = state.attachmentOrigins.get? id
  operations_v2 : state.contractVersion = .v2 →
    ∀ id, result.state.operations.get? id = state.operations.get? id
  operations_v3 : state.contractVersion = .v3 →
    ∀ id operation, result.state.operations.get? id = some operation ↔ Pending state id operation
  later : ∀ frames, Continues expectedHead.lastChecksum (expectedHead.frameCount.val + 1) frames →
    (∀ frame ∈ frames, ¬ Dropped state result.state frame.operationId) →
    ∃ moved, rebase (fun _ => 1) result.head.lastChecksum (result.head.frameCount.val + 1) frames = some moved ∧
      Option.Rel Agrees
        (replayLedger state expectedHead.lastChecksum (expectedHead.frameCount.val + 1) frames)
        (replayLedger result.state result.head.lastChecksum (result.head.frameCount.val + 1) moved)

section Transparent

variable {state : GenerationState} {snapshot : CheckpointArrays} {expectedHead : LedgerHead} {result : Rotation}

theorem Rotates.mirrors (h : Reached state) (rotates : Rotates expectedHead state snapshot result) :
    Mirrors (Dropped state result.state) (fun _ => 1) state result.state where
  keyed := h.invariant.keyed
  version := rotates.contractVersion
  stateRevision := rotates.stateRevision
  storages := rotates.storages h.invariant.keyed
  origins := rotates.origins h
  kept := by
    intro id live
    refine Option.ext fun operation => ?_
    rw [rotates.operations h.invariant.keyed, Option.map_eq_some_iff]
    constructor
    · rintro ⟨found, -⟩
      exact ⟨operation, found, rfl⟩
    · rintro ⟨before, found, rfl⟩
      refine ⟨found, ?_⟩
      by_contra drop
      refine live ⟨⟨before, found, fun pending => drop (.inr pending)⟩, ?_⟩
      cases present : result.state.operations.get? id with
      | none => rfl
      | some other =>
          obtain ⟨holds, kept⟩ := (rotates.operations h.invariant.keyed).mp present
          obtain rfl := Option.some.inj (found.symm.trans holds)
          exact absurd kept drop
  gone := by
    rintro id ⟨⟨operation, found, committed⟩, absent⟩
    refine ⟨absent, fun other holds => ?_⟩
    obtain rfl := Option.some.inj (found.symm.trans holds)
    exact committed

/-- The head of a rotation is the one `rotateGeneration` builds: it has no frames yet, and its chain
starts from the checkpoint that was written. -/
structure RotatedFrom (expectedHead : LedgerHead) (state : GenerationState) (result : Rotation) : Prop where
  written : ∃ generation, nextGeneration expectedHead = some generation ∧
    writeCheckpointFrames state generation (headChecksum expectedHead) = some result.checkpoint
  loaded : parseCheckpointStream result.checkpoint.bytes result.head = some result.state
  frameCount : result.head.frameCount.val = 0
  lastChecksum : result.head.lastChecksum = some result.checkpoint.checkpointChecksum

theorem rotatedFrom (h : rotation expectedHead state = some result) :
    RotatedFrom expectedHead state result := by
  simp only [rotation, Option.bind_eq_bind, Option.bind_eq_some_iff, ensure_eq_some_iff, exists_const,
    Option.some.injEq] at h
  obtain ⟨-, generation, following, checkpoint, written, head, rotated, loaded, parsed, -, -, -, -, -, rfl⟩ := h
  simp only [rotatedHead, Option.bind_eq_bind, Option.bind_eq_some_iff,
    Option.dite_none_right_eq_some] at rotated
  obtain ⟨_, -, _, rotated⟩ := rotated
  refine ⟨⟨generation, following, written⟩, parsed, ?_, ?_⟩
  · show head.toHeadRecord.frameCount.val = 0
    rw [ledgerHead_eq_some rotated]
  · show head.toHeadRecord.lastChecksum = _
    rw [ledgerHead_eq_some rotated]

theorem Rotates.transparent (h : Reached state) (rotates : Rotates expectedHead state snapshot result)
    (rotated : rotation expectedHead state = some result) : Transparent expectedHead state result := by
  have first := (rotatedFrom rotated).frameCount
  refine ⟨(rotatedFrom rotated).loaded, rotates.stateRevision, rotates.storages h.invariant.keyed, rotates.origins h, ?_, ?_, ?_⟩
  · intro version id
    refine Option.ext fun operation => ?_
    rw [rotates.operations h.invariant.keyed, version]
    exact and_iff_left (.inl rfl)
  · intro version id operation
    rw [rotates.operations h.invariant.keyed, version, Pending]
    refine and_congr_right fun _ => ?_
    exact or_iff_right (fun retained => by cases retained)
  · intro frames continues live
    have positive : 1 ≤ result.head.frameCount.val + 1 := by omega
    have earlier : result.head.frameCount.val + 1 ≤ expectedHead.frameCount.val + 1 := by omega
    obtain ⟨moved, is⟩ := rebase_of_continues continues positive earlier (fun _ => 1) result.head.lastChecksum
    refine ⟨moved, is, ?_⟩
    have related := (rotates.mirrors h).replayed continues live is
    generalize replayLedger state _ _ _ = before at related ⊢
    generalize replayLedger result.state _ _ _ = after at related ⊢
    cases related with
    | none => exact .none
    | some related =>
        obtain ⟨_, mirrors⟩ := related
        exact .some mirrors.agrees

/-- The states of a run can be rotated, as far as their checkpoints can be counted. -/
theorem Run.rotates {version : Version} {records : List Operation} (run : Run version records state)
    (anchors : Anchors expectedHead state) (room : CanAdvance expectedHead)
    (capacity : ∀ snapshot, checkpointArrays state = some snapshot → WithinCapacity snapshot) :
    ∃ result, rotation expectedHead state = some result ∧ Transparent expectedHead state result := by
  obtain ⟨snapshot, arrays⟩ := run.reached.invariant.snapshots
  obtain ⟨result, rotated, rotates⟩ := run.reached.rotates anchors room arrays (capacity snapshot arrays)
  exact ⟨result, rotated, rotates.transparent run.reached rotated⟩

end Transparent

/-- A rotation of version 3 counts no more operations and storages than there were. -/
theorem Transparent.sizedBy {state : GenerationState} {expectedHead : LedgerHead} {result : Rotation} {count : Nat}
    (h : Transparent expectedHead state result) (version : state.contractVersion = .v3)
    (sized : SizedBy count state) : SizedBy count result.state := by
  have fewer : result.state.operations.size ≤ state.operations.size := by
    have kept : result.state.operations.keys ⊆ state.operations.keys := by
      intro id member
      obtain ⟨operation, found⟩ := JsMap.mem_keys.mp member
      exact JsMap.mem_keys.mpr ⟨operation, ((h.operations_v3 version id operation).mp found).1⟩
    have length := (List.subperm_of_subset result.state.operations.nodup kept).length_le
    simpa only [JsMap.keys, JsMap.size, List.length_map] using length
  have same : result.state.storages.size = state.storages.size :=
    JsMap.size_eq_of_isSome fun id => congrArg Option.isSome (h.storages id)
  exact ⟨fewer.trans sized.1, same.trans_le sized.2⟩

/-! ### Rotations of reachable states -/

/-- A state that a ledger of the first generation reaches is rotated, and so is every state of a run
whose checkpoint and head the code can count. In both cases the rotation is not seen afterwards. -/
theorem rotationTransparency (version : Version) :
    (∀ frames state expectedHead,
      replayLedger (emptyGenerationState ⟨0, by decide⟩ version) none 1 frames = some state →
        Anchors expectedHead state → expectedHead.generation.val = 0 →
          ∃ result, rotation expectedHead state = some result ∧ Transparent expectedHead state result) ∧
      ∀ records state expectedHead, Run version records state → Anchors expectedHead state →
        CanAdvance expectedHead →
          (∀ snapshot, checkpointArrays state = some snapshot → WithinCapacity snapshot) →
            ∃ result, rotation expectedHead state = some result ∧ Transparent expectedHead state result := by
  refine ⟨?_, fun records state expectedHead run anchors room capacity => run.rotates anchors room capacity⟩
  intro frames state expectedHead replayed anchors first
  have empty : SizedBy 0 (emptyGenerationState ⟨0, by decide⟩ version) := ⟨le_rfl, le_rfl⟩
  obtain ⟨⟨records, run⟩, count, sized, limit⟩ := replayLedger_run .start empty rfl replayed
  have few : count ≤ maxFrameCount := limit.trans (max_le (Nat.zero_le _) le_rfl)
  refine run.rotates anchors ?_ fun snapshot arrays => sized.withinCapacity run.invariant.keyed few arrays
  -- a head of the first generation has as many revisions as frames
  obtain ⟨-, sum, difference, rest⟩ := expectedHead.consistent
  have frames := expectedHead.frameCount.property
  have start : expectedHead.checkpointStateRevision.val = 0 := by
    rw [if_pos first] at rest
    split at rest
    · exact rest.2.1.2.1
    · exact rest.2.1.2.1
  have small : maxFrameCount + 1 < 2 ^ 64 := by decide
  unfold CanAdvance
  omega

/-- The head of the empty ledger. -/
def genesisRecord : HeadRecord where
  contractVersion := .v3
  anchorRevision := ⟨0, uint64_zero⟩
  generation := ⟨0, uint64_zero⟩
  stateRevision := ⟨0, uint64_zero⟩
  baseHeadChecksum := none
  checkpointStateRevision := ⟨0, uint64_zero⟩
  checkpointFrameCount := ⟨0, Nat.zero_le _⟩
  checkpointChecksum := none
  checkpointBytes := ⟨0, Nat.zero_le _⟩
  frameCount := ⟨0, Nat.zero_le _⟩
  lastChecksum := none
  ledgerBytes := ⟨0, Nat.zero_le _⟩

theorem genesisRecord_consistent : genesisRecord.Consistent :=
  ⟨le_rfl, rfl, rfl, rfl, ⟨rfl, rfl, rfl, rfl, rfl⟩, rfl, rfl, rfl⟩

def genesisHead : LedgerHead := { toHeadRecord := genesisRecord, consistent := genesisRecord_consistent }

/-- The empty state that it anchors. -/
abbrev genesisState : GenerationState := emptyGenerationState ⟨0, uint64_zero⟩ .v3

theorem genesis_anchors : Anchors genesisHead genesisState := ⟨rfl, rfl⟩

theorem genesis_canAdvance : CanAdvance genesisHead := by unfold CanAdvance; decide

theorem genesis_capacity (snapshot : CheckpointArrays) (h : checkpointArrays genesisState = some snapshot) :
    WithinCapacity snapshot := by
  have sized : SizedBy 0 genesisState := ⟨le_rfl, le_rfl⟩
  exact sized.withinCapacity (invariant_empty _ _).keyed (Nat.zero_le _) h

/-! ### A rotation behind a provision and a prepared attach -/

/-- A first storage that is provisioned behind the head of the empty ledger. -/
def firstFrames : List DeltaFrame :=
  let prepared : DeltaFrame := .prepared (firstPrepared .v3)
  [prepared, .committed (firstCommitted .v3 (deltaChecksum prepared))]

theorem replayLedger_cons {state next : GenerationState} {record : Operation} {checksum : Option Checksum}
    {sequence : Nat} {frame : DeltaFrame} (names : frame.previousChecksum = checksum)
    (applied : applyDeltaFrame state frame (deltaChecksum frame) sequence = some (record, next))
    (frames : List DeltaFrame) :
    replayLedger state checksum sequence (frame :: frames) =
      replayLedger next (some (deltaChecksum frame)) (sequence + 1) frames := by
  rw [replayLedger, ensure_pos names]
  simp only [Option.bind_eq_bind, Option.bind_some, applied]

/-- The checksum of the first frame. -/
def provisionChecksum : Checksum := deltaChecksum (.prepared (firstPrepared .v3))

def provisionedChecksum : Checksum := deltaChecksum (.committed (firstCommitted .v3 provisionChecksum))

def attachChecksum : Checksum := deltaChecksum (.prepared (attachPrepared .v3 provisionedChecksum))

/-- Replaying the first storage behind the head of the empty ledger. -/
theorem firstFrames_replayed :
    replayLedger genesisState none 1 firstFrames = some (firstProvisioned .v3 provisionChecksum) :=
  (replayLedger_cons rfl (firstPending_applied .v3 provisionChecksum) _).trans
    (replayLedger_cons rfl (firstProvisioned_applied .v3 provisionChecksum provisionedChecksum) [])

/-- The first storage is provisioned, and its attach is prepared. -/
def attachFrames : List DeltaFrame := firstFrames ++ [.prepared (attachPrepared .v3 provisionedChecksum)]

/-- The commit of the attach, which follows the rotation. -/
def attachCommit : DeltaFrame := .committed (attachCommitted .v3 attachChecksum)

def attachState : GenerationState := attachPending .v3 provisionChecksum provisionedChecksum attachChecksum

theorem attachState_run :
    Run .v3 ((attachRecords .v3 provisionChecksum provisionedChecksum attachChecksum).take 3) attachState :=
  attachPending_run .v3 provisionChecksum provisionedChecksum attachChecksum

theorem attachFrames_replayed : replayLedger genesisState none 1 attachFrames = some attachState :=
  (replayLedger_cons rfl (firstPending_applied .v3 provisionChecksum) _).trans
    ((replayLedger_cons rfl (firstProvisioned_applied .v3 provisionChecksum provisionedChecksum) _).trans
      (replayLedger_cons rfl
        (attachPending_applied .v3 provisionChecksum provisionedChecksum attachChecksum) []))

theorem attachCommit_replayed :
    replayLedger attachState (some attachChecksum) 4 [attachCommit] =
      some (attachAttached .v3 provisionChecksum provisionedChecksum attachChecksum) :=
  replayLedger_cons rfl (attachAttached_applied .v3 provisionChecksum provisionedChecksum attachChecksum
    (deltaChecksum attachCommit)) []

theorem three_isUint64 : 3 < 2 ^ 64 := three_isRevision.2

theorem three_isFrameCount : 3 ≤ maxFrameCount := three_isSequence.2

theorem attachFrames_bytes : 2100 ≤ maxLedgerBytes := by decide

/-- The head behind the three frames. -/
def attachRecord : HeadRecord :=
  { genesisRecord with
    anchorRevision := ⟨3, three_isUint64⟩
    stateRevision := ⟨3, three_isUint64⟩
    frameCount := ⟨3, three_isFrameCount⟩
    lastChecksum := some attachChecksum
    ledgerBytes := ⟨2100, attachFrames_bytes⟩ }

theorem attachRecord_consistent : attachRecord.Consistent :=
  ⟨Nat.zero_le _, rfl, rfl, rfl, ⟨rfl, rfl, rfl, rfl, rfl⟩, three_isRevision.1, Option.some_ne_none _,
    Nat.succ_pos _⟩

def attachHead : LedgerHead := { toHeadRecord := attachRecord, consistent := attachRecord_consistent }

theorem attach_anchors : Anchors attachHead attachState := ⟨rfl, rfl⟩

theorem attach_canAdvance : CanAdvance attachHead := by unfold CanAdvance; decide

theorem attachState_sized : ∃ count, SizedBy count attachState ∧ count ≤ maxFrameCount := by
  have empty : SizedBy 0 genesisState := ⟨le_rfl, le_rfl⟩
  obtain ⟨-, count, sized, limit⟩ := replayLedger_run .start empty rfl attachFrames_replayed
  exact ⟨count, sized, limit.trans (max_le (Nat.zero_le _) le_rfl)⟩

theorem attach_capacity (snapshot : CheckpointArrays) (arrays : checkpointArrays attachState = some snapshot) :
    WithinCapacity snapshot := by
  obtain ⟨_, sized, few⟩ := attachState_sized
  exact sized.withinCapacity attachState_run.invariant.keyed few arrays

/-- The attach is pending, the provision is committed. -/
theorem attachState_pending :
    Pending attachState (attachPrepared .v3 provisionedChecksum).operationId
      (makePreparedRecord (attachPrepared .v3 provisionedChecksum) attachChecksum) :=
  ⟨JsMap.get?_set_self, rfl⟩

theorem attachState_committed :
    ∃ operation, attachState.operations.get? (firstPrepared .v3).operationId = some operation ∧
      operation.commit ≠ none :=
  ⟨_, (JsMap.get?_set_of_ne attach_ne_operation.symm).trans JsMap.get?_set_self, Option.some_ne_none _⟩

/-- The committed provision is dropped. The storage and its prepared attach are kept, and the attach
can still be committed. -/
theorem rotationTransparency_attach :
    (∃ result, rotation attachHead attachState = some result ∧ Transparent attachHead attachState result ∧
      Dropped attachState result.state (firstPrepared .v3).operationId ∧
      result.state.storages.get? firstStorage.storageId = some firstStorage ∧
      (∃ operation, Pending result.state (attachPrepared .v3 provisionedChecksum).operationId operation) ∧
      ∃ moved, rebase (fun _ => 1) result.head.lastChecksum (result.head.frameCount.val + 1) [attachCommit] = some moved ∧
        (replayLedger result.state result.head.lastChecksum (result.head.frameCount.val + 1) moved).isSome = true) ∧
      ∃ result, rotation attachHead attachState = some result ∧ Transparent attachHead attachState result := by
  refine ⟨?_, (rotationTransparency .v3).2 _ _ attachHead attachState_run attach_anchors attach_canAdvance
    attach_capacity⟩
  obtain ⟨result, rotated, transparent⟩ :=
    (rotationTransparency .v3).1 attachFrames _ attachHead attachFrames_replayed attach_anchors rfl
  obtain ⟨provision, found, committed⟩ := attachState_committed
  have pending := transparent.operations_v3 rfl _ _ |>.mpr attachState_pending
  have continues : Continues attachHead.lastChecksum (attachHead.frameCount.val + 1) [attachCommit] :=
    .cons rfl rfl .nil
  obtain ⟨moved, moves, related⟩ := transparent.later [attachCommit] continues (by
    rintro frame member ⟨⟨operation, found, committed⟩, -⟩
    obtain rfl := List.mem_singleton.mp member
    obtain rfl := Option.some.inj (found.symm.trans attachState_pending.1)
    exact committed rfl)
  refine ⟨result, rotated, transparent, ⟨⟨provision, found, committed⟩, ?_⟩, ?_, ⟨_, pending, rfl⟩, moved, moves, ?_⟩
  · refine Option.eq_none_iff_forall_ne_some.mpr fun operation kept => ?_
    obtain ⟨same, open'⟩ := (transparent.operations_v3 rfl _ _).mp kept
    obtain rfl := Option.some.inj (found.symm.trans same)
    exact committed open'
  · exact (transparent.storages _).trans JsMap.get?_set_self
  · change Option.Rel Agrees (replayLedger attachState (some attachChecksum) 4 [attachCommit]) _ at related
    rw [attachCommit_replayed] at related
    generalize replayLedger result.state _ _ _ = after at related ⊢
    cases related
    rfl

/-! ### Frames whose commits are not renamed -/

/-- The checksum of the checkpoint of the empty state. -/
def genesisCheckpointChecksum : Checksum :=
  ⟨js "93ae41bc5ff38582cadddc8d971e5e69571bdd4c6d0ddba0483a516fe2d3b061", by decide⟩

theorem genesis_checkpointChecksum :
    (writeCheckpointFrames genesisState ⟨1, by decide⟩ (headChecksum genesisHead)).map
      (·.checkpointChecksum) = some genesisCheckpointChecksum := by decide +kernel

/-- The prepare of the first storage behind that checkpoint. -/
def movedPrepared : DeltaFrame :=
  DeltaFrame.place (some genesisCheckpointChecksum) ⟨1, one_isSequence⟩ (.prepared (firstPrepared .v3))

theorem movedPrepared_checksum : deltaChecksum movedPrepared ≠ deltaChecksum (.prepared (firstPrepared .v3)) := by
  decide +kernel

/-- Moved without renaming, a commit names the checksum that its prepare had before. -/
theorem replayLedger_stale {state : GenerationState} {checksum : Option Checksum} {prepared : PreparedFrame}
    {committed : CommittedFrame} (sameOperation : committed.operationId = prepared.operationId)
    (stale : committed.preparedChecksum ≠ some (deltaChecksum (.prepared prepared))) :
    replayLedger state checksum 1 [.prepared prepared, .committed committed] = none := by
  refine Option.eq_none_iff_forall_ne_some.mpr fun next accepted => ?_
  simp only [replayLedger, Option.bind_eq_bind, Option.bind_eq_some_iff, ensure_eq_some_iff,
    exists_const] at accepted
  obtain ⟨-, ⟨_, after⟩, first, -, ⟨_, _⟩, second, -⟩ := accepted
  obtain ⟨-, prepares⟩ := applyDeltaFrame_eq_some_iff.mp first
  obtain ⟨-, commits⟩ := applyDeltaFrame_eq_some_iff.mp second
  cases prepares with
  | prepared =>
      cases commits with
      | committed commits =>
          have found := commits.found
          rw [sameOperation] at found
          change (state.operations.set _ _).get? _ = _ at found
          rw [JsMap.get?_set_self] at found
          obtain rfl := Option.some.inj found
          exact stale commits.checksum

/-- Frames that are accepted behind a head are refused behind the rotated one if nothing but their
sequences and previous checksums is changed. -/
theorem relocate_refused :
    ∃ result moved, rotation genesisHead genesisState = some result ∧
      Continues genesisHead.lastChecksum (genesisHead.frameCount.val + 1) firstFrames ∧
      (∀ frame ∈ firstFrames, ¬ Dropped genesisState result.state frame.operationId) ∧
      relocate result.head.lastChecksum (result.head.frameCount.val + 1) firstFrames = some moved ∧
      (replayLedger genesisState genesisHead.lastChecksum (genesisHead.frameCount.val + 1)
        firstFrames).isSome = true ∧
      replayLedger result.state result.head.lastChecksum (result.head.frameCount.val + 1) moved = none := by
  have empty : Run .v3 [] genesisState := .start
  obtain ⟨result, rotated, -⟩ := empty.rotates genesis_anchors genesis_canAdvance genesis_capacity
  obtain ⟨⟨generation, following, written⟩, -, frameCount, lastChecksum⟩ := rotatedFrom rotated
  have one : nextGeneration genesisHead = some ⟨1, by decide⟩ := rfl
  obtain rfl := Option.some.inj (one.symm.trans following)
  have checksum : result.checkpoint.checkpointChecksum = genesisCheckpointChecksum := by
    have form := genesis_checkpointChecksum
    rw [written] at form
    exact Option.some.inj form
  rw [checksum] at lastChecksum
  refine ⟨result, ?_⟩
  rw [lastChecksum, frameCount]
  refine ⟨_, rotated, .cons rfl rfl (.cons rfl rfl .nil), ?_, rfl, ?_, ?_⟩
  · rintro frame - ⟨⟨_, found, -⟩, -⟩
    cases found
  · show (replayLedger genesisState none 1 firstFrames).isSome = true
    rw [firstFrames_replayed]
    rfl
  · refine replayLedger_stale rfl fun same => ?_
    exact movedPrepared_checksum (Option.some.inj same).symm

end PortableCodex.ProviderState
