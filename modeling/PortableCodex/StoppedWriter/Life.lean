import PortableCodex.StoppedWriter.Coordinator
import PortableCodex.Traces.Run

/-!
What one call can do to the writers.

`Moves` lists every change that `World.perform` makes, with the conditions the code has checked
(`perform_moves`). `Linked` says that writers and capabilities name each other and that what has not
settled is known. A writer is seen through its `View`; a move changes the view of one writer only.
-/

namespace PortableCodex.StoppedWriter

open Js ProviderState Contracts

variable {α β : Type}

/-! ### Checks -/

theorem ensureOr_bind_ok {p : Prop} [Decidable p] {code : ErrorCode} {f : Unit → Except ErrorCode α} {a : α} :
    (ensureOr p code >>= f) = .ok a ↔ p ∧ f () = .ok a := by
  by_cases holds : p
  · rw [ensureOr, if_pos holds]
    exact (and_iff_right holds).symm
  · rw [ensureOr, if_neg holds]
    exact ⟨nofun, fun h => absurd h.1 holds⟩

theorem ensureOr_ok {p : Prop} [Decidable p] {code : ErrorCode} : ensureOr p code = .ok () ↔ p := by
  by_cases holds : p
  · rw [ensureOr, if_pos holds]
    exact iff_of_true rfl holds
  · rw [ensureOr, if_neg holds]
    exact ⟨nofun, fun h => absurd h holds⟩

theorem bind_ok {x : Except ErrorCode α} {f : α → Except ErrorCode β} {b : β} :
    (x >>= f) = .ok b ↔ ∃ a, x = .ok a ∧ f a = .ok b := by
  cases x with
  | error code => exact ⟨nofun, fun ⟨_, h, _⟩ => nomatch h⟩
  | ok a => exact ⟨fun h => ⟨a, rfl, h⟩, fun ⟨_, h, rest⟩ => Except.ok.inj h ▸ rest⟩

theorem authenticateWriter_ok {c : Coordinator} {writer processValue writerValue : Argument}
    {found : Handle × WriterRecord}
    (h : c.authenticateWriter writer processValue writerValue = .ok found) :
    c.writerRecords.get? found.1 = some found.2 := by
  unfold Coordinator.authenticateWriter at h
  split at h
  · rename_i handle record process incarnation known _ _
    obtain ⟨_, same⟩ := ensureOr_bind_ok.mp h
    obtain rfl := Except.ok.inj same
    unfold Coordinator.writerOf at known
    split at known
    · split at known
      · obtain ⟨r, get, form⟩ := Option.map_eq_some_iff.mp known
        cases form
        exact get
      · cases known
    · cases known
  · cases h

theorem capabilityOf_some {c : Coordinator} {argument : Argument} {found : Handle × CapabilityRecord}
    (h : c.capabilityOf argument = some found) : c.capabilityRecords.get? found.1 = some found.2 := by
  unfold Coordinator.capabilityOf at h
  split at h
  · split at h
    · obtain ⟨r, get, rfl⟩ := Option.map_eq_some_iff.mp h
      exact get
    · cases h
  · cases h

/-! ### Moves -/

/-- A record as `registerWriter` makes it. -/
structure WriterRecord.New (record : WriterRecord) : Prop where
  running : record.state = .running
  unissued : record.capabilityRecord = none
  unconfirmed : record.stopEstablished = false
  unrevoked : record.revocationRequested = false

/-- What a call or the settling of a callback does. -/
inductive Moves (w : World) : List Event → World → Prop where
  | idle : Moves w [] w
  | fails (code) : Moves w [.failed code] w
  | registers (record) : record.New → w.coordinator.disposed = false →
      w.coordinator.activeForSession record.attachment.sessionId = 0 →
      Coordinator.EpochFollows record.writerFence.fencingEpoch (w.coordinator.slots.get? record.slot) →
      Coordinator.Vacant (w.coordinator.slots.get? record.slot) →
      Moves w [.registered w.coordinator.nextHandle record.slot record.writerFence.fencingEpoch]
        { w with coordinator := w.coordinator.addWriter record }
  | stops (h record operation) : w.coordinator.writerRecords.get? h = some record →
      record.state = .running → Moves w [.stopCalled h] { w with
        coordinator := w.coordinator.setWriter h
          { record with state := .stopping, stopOperationId := some operation }
        stops := h :: w.stops }
  | issues (h record) : w.coordinator.writerRecords.get? h = some record → h ∈ w.stops →
      record.state = .stopping → Moves w [.stopConfirmed h, .issued h w.coordinator.nextHandle] { w with
        coordinator := w.coordinator.issue h { record with stopEstablished := true }
        stops := w.stops.erase h }
  | confirms (h record code) : w.coordinator.writerRecords.get? h = some record → h ∈ w.stops →
      record.state ≠ .stopping → Moves w [.stopConfirmed h, .failed code] { w with
        coordinator := w.coordinator.setWriter h { record with stopEstablished := true }
        stops := w.stops.erase h }
  | stopFails (h record code) : w.coordinator.writerRecords.get? h = some record → h ∈ w.stops →
      Moves w [.failed code] { w with
        coordinator := w.coordinator.setWriter h { record with
          state := if record.state = .stopping then .stopUncertain else record.state
          stopEstablished := false }
        stops := w.stops.erase h }
  | samples (k h record) : w.coordinator.capabilityRecords.get? k = some ⟨.issued, h⟩ →
      w.coordinator.writerRecords.get? h = some record → record.state = .issued →
      Moves w [.snapshotCalled h k] { w with
        coordinator := w.coordinator.setBoth k .consuming h record .consuming
        snapshots := k :: w.snapshots }
  | rejects (k h record code) : w.coordinator.capabilityRecords.get? k = some ⟨.issued, h⟩ →
      w.coordinator.writerRecords.get? h = some record →
      Moves w [.revoked h, .failed code]
        { w with coordinator := w.coordinator.setBoth k .revoked h record .revoked }
  | consumes (k h record state) : w.coordinator.capabilityRecords.get? k = some ⟨state, h⟩ →
      w.coordinator.writerRecords.get? h = some record → k ∈ w.snapshots →
      record.revocationRequested = false → Moves w [.consumed h k] { w with
        coordinator := w.coordinator.setBoth k .consumed h record .consumed
        snapshots := w.snapshots.erase k }
  | doubts (k h record state code) : w.coordinator.capabilityRecords.get? k = some ⟨state, h⟩ →
      w.coordinator.writerRecords.get? h = some record → k ∈ w.snapshots →
      Moves w [.failed code] { w with
        coordinator := w.coordinator.setBoth k .consumed h record .snapshotUncertain
        snapshots := w.snapshots.erase k }
  | requests (h record) : w.coordinator.writerRecords.get? h = some record → record.state = .consuming →
      Moves w [.revoked h] { w with
        coordinator := w.coordinator.setWriter h { record with revocationRequested := true } }
  | revokes (h record) : w.coordinator.writerRecords.get? h = some record →
      record.state ∈ Coordinator.revocableStates →
      Moves w [.revoked h] { w with coordinator := w.coordinator.revoke h record }
  | retires (h record) : w.coordinator.writerRecords.get? h = some record →
      w.coordinator.disposed = false →
      record.state = .consumed ∨ record.state = .revoked ∧ record.stopEstablished = true →
      (w.coordinator.slots.get? record.slot).bind (·.current) = some h →
      Moves w [.retired h] { w with
        coordinator := w.coordinator.removeWriter h record
          (w.coordinator.activeForSession record.attachment.sessionId) }
  | disposes (c) : c = { w.coordinator with
        disposed := true, activeWritersBySession := .empty, capabilities := [], slots := .empty, writers := [] } →
      w.coordinator.activeWriters = 0 → Moves w [.disposed] { w with coordinator := c }

theorem moves_after {w : World} {result : Except ErrorCode α} {next : α → World × List Event}
    (ok : ∀ a, result = .ok a → Moves w (next a).2 (next a).1) :
    Moves w (w.after result next).2 (w.after result next).1 := by
  cases result with
  | ok a => exact ok a rfl
  | error code => exact .fails code

theorem moves_settleStop {w : World} {h : Handle} {record : WriterRecord}
    (found : w.coordinator.writerRecords.get? h = some record) (pending : h ∈ w.stops) (settled : Settled) :
    Moves w (w.settleStop h record settled).2 (w.settleStop h record settled).1 := by
  by_cases confirmed : settled = .yielded .stopConfirmed
  · subst confirmed
    by_cases stopping : record.state = .stopping
    · have form : w.coordinator.stopSettles h record (.yielded .stopConfirmed) =
          (w.coordinator.issue h { record with stopEstablished := true }, .ok w.coordinator.nextHandle) :=
        if_pos stopping
      simp only [World.settleStop, form]
      exact .issues h record found pending stopping
    · have form : w.coordinator.stopSettles h record (.yielded .stopConfirmed) =
          (w.coordinator.setWriter h { record with stopEstablished := true }, .error .writerStateConflict) :=
        if_neg stopping
      simp only [World.settleStop, form]
      exact .confirms h record _ found pending stopping
  · have form : w.settleStop h record settled = ({ w with
        coordinator := w.coordinator.setWriter h { record with
          state := if record.state = .stopping then .stopUncertain else record.state
          stopEstablished := false }
        stops := w.stops.erase h }, [.failed .writerStopOutcomeUncertain]) := by
      rcases settled with _ | _ | _ | value
      · rfl
      · rfl
      · rfl
      · cases value with
        | stopConfirmed => exact absurd rfl confirmed
        | proxy => rfl
        | generatorObject => rfl
        | thenable => rfl
        | plain value => rfl
    rw [form]
    exact .stopFails h record _ found pending

theorem moves_settleSnapshot {w : World} {k h : Handle} {record : WriterRecord} {state : CapabilityState}
    (capability : w.coordinator.capabilityRecords.get? k = some ⟨state, h⟩)
    (found : w.coordinator.writerRecords.get? h = some record) (pending : k ∈ w.snapshots)
    (settled : Settled) :
    Moves w (w.settleSnapshot k h record settled).2 (w.settleSnapshot k h record settled).1 := by
  have doubtful : w.coordinator.snapshotSettles k h record settled =
      (w.coordinator.setBoth k .consumed h record .snapshotUncertain, .error .snapshotOutcomeUncertain) →
      Moves w (w.settleSnapshot k h record settled).2 (w.settleSnapshot k h record settled).1 := by
    intro form
    simp only [World.settleSnapshot, form]
    exact .doubts k h record state _ capability found pending
  rcases settled with _ | _ | _ | value
  · exact doubtful rfl
  · exact doubtful rfl
  · exact doubtful rfl
  · by_cases refused : record.revocationRequested ∨ value.isSafe = false
    · exact doubtful (if_pos refused)
    · have form : w.coordinator.snapshotSettles k h record (.yielded value) =
          (w.coordinator.setBoth k .consumed h record .consumed, .ok value) := if_neg refused
      simp only [World.settleSnapshot, form]
      exact .consumes k h record state capability found pending
        (Bool.eq_false_iff.mpr fun requested => refused (.inl requested))

theorem assertConsumable_ok {c : Coordinator} {fields : ConsumeFields} {h : Handle} {record : WriterRecord}
    (ok : c.assertConsumable fields h record = .ok ()) : record.state = .issued := by
  unfold Coordinator.assertConsumable at ok
  obtain ⟨_, ok⟩ := ensureOr_bind_ok.mp ok
  obtain ⟨_, _, ok⟩ := bind_ok.mp ok
  obtain ⟨_, _, ok⟩ := bind_ok.mp ok
  obtain ⟨_, _, ok⟩ := bind_ok.mp ok
  obtain ⟨_, ok⟩ := ensureOr_bind_ok.mp ok
  obtain ⟨_, _, ok⟩ := bind_ok.mp ok
  obtain ⟨_, _, ok⟩ := bind_ok.mp ok
  obtain ⟨_, ok⟩ := ensureOr_bind_ok.mp ok
  exact ensureOr_ok.mp ok

theorem consumeCapability_cases (c : Coordinator) (options : Options ConsumeFields) :
    (∃ code, c.consumeCapability options = (c, .refused code)) ∨
    ∃ k h record, c.capabilityRecords.get? k = some ⟨.issued, h⟩ ∧ c.writerRecords.get? h = some record ∧
      (c.consumeCapability options = (c.setBoth k .revoked h record .revoked, .rejected h) ∨
        record.state = .issued ∧
          c.consumeCapability options = (c.setBoth k .consuming h record .consuming, .running k h)) := by
  unfold Coordinator.consumeCapability
  split
  · exact .inl ⟨_, rfl⟩
  · rcases options with _ | fields
    · exact .inl ⟨_, rfl⟩
    · dsimp only
      split
      · rename_i k h presented
        have capability := capabilityOf_some presented
        split
        · exact .inl ⟨_, rfl⟩
        · rename_i record found
          refine .inr ⟨k, h, record, capability, found, ?_⟩
          split
          · rename_i ok
            exact .inr ⟨assertConsumable_ok ok, rfl⟩
          · exact .inl rfl
      · exact .inl ⟨_, rfl⟩

theorem moves_consume {w : World} (options : Options ConsumeFields) :
    Moves w (w.consume options).2 (w.consume options).1 := by
  unfold World.consume
  rcases consumeCapability_cases w.coordinator options with
    ⟨code, form⟩ | ⟨k, h, record, capability, found, form | ⟨issued, form⟩⟩
  · rw [form]
    exact .fails code
  · rw [form]
    exact .rejects k h record _ capability found
  · rw [form]
    exact .samples k h record capability found issued

theorem moves_registerWriter {w : World} (options : Options RegisterFields) :
    Moves w (w.perform (.registerWriter options)).2 (w.perform (.registerWriter options)).1 := by
  refine moves_after fun ⟨h, c⟩ ok => ?_
  unfold Coordinator.registerWriter at ok
  obtain ⟨alive, ok⟩ := ensureOr_bind_ok.mp ok
  obtain ⟨fields, _, ok⟩ := bind_ok.mp ok
  obtain ⟨process, _, ok⟩ := bind_ok.mp ok
  obtain ⟨incarnation, _, ok⟩ := bind_ok.mp ok
  obtain ⟨_, _, ok⟩ := bind_ok.mp ok
  obtain ⟨binding, _, ok⟩ := bind_ok.mp ok
  obtain ⟨free, ok⟩ := ensureOr_bind_ok.mp ok
  obtain ⟨follows, ok⟩ := ensureOr_bind_ok.mp ok
  obtain ⟨vacant, ok⟩ := ensureOr_bind_ok.mp ok
  cases ok
  simp only [Coordinator.addWriter, JsMap.get?_set_self, Option.map_some, Option.toList_some]
  exact .registers _ ⟨rfl, rfl, rfl, rfl⟩ alive free follows vacant

theorem moves_stopAndIssueCapability {w : World} (options : Options StopFields) :
    Moves w (w.perform (.stopAndIssueCapability options)).2 (w.perform (.stopAndIssueCapability options)).1 := by
  refine moves_after fun ⟨h, c⟩ ok => ?_
  unfold Coordinator.stopAndIssueCapability at ok
  obtain ⟨_, ok⟩ := ensureOr_bind_ok.mp ok
  obtain ⟨fields, _, ok⟩ := bind_ok.mp ok
  obtain ⟨⟨handle, record⟩, known, ok⟩ := bind_ok.mp ok
  obtain ⟨operation, _, ok⟩ := bind_ok.mp ok
  obtain ⟨running, ok⟩ := ensureOr_bind_ok.mp ok
  cases ok
  exact .stops h record operation (authenticateWriter_ok known) running

theorem moves_revokeWriter {w : World} (options : Options WriterFields) :
    Moves w (w.perform (.revokeWriter options)).2 (w.perform (.revokeWriter options)).1 := by
  refine moves_after fun ⟨h, c⟩ ok => ?_
  unfold Coordinator.revokeWriter at ok
  obtain ⟨_, ok⟩ := ensureOr_bind_ok.mp ok
  obtain ⟨fields, _, ok⟩ := bind_ok.mp ok
  obtain ⟨⟨handle, record⟩, known, ok⟩ := bind_ok.mp ok
  dsimp only at ok
  split at ok
  · rename_i consuming
    cases ok
    exact .requests h record (authenticateWriter_ok known) consuming
  · obtain ⟨revocable, ok⟩ := ensureOr_bind_ok.mp ok
    cases ok
    exact .revokes h record (authenticateWriter_ok known) revocable

theorem moves_retireWriter {w : World} (options : Options WriterFields) :
    Moves w (w.perform (.retireWriter options)).2 (w.perform (.retireWriter options)).1 := by
  refine moves_after fun ⟨h, c⟩ ok => ?_
  unfold Coordinator.retireWriter at ok
  obtain ⟨alive, ok⟩ := ensureOr_bind_ok.mp ok
  obtain ⟨fields, _, ok⟩ := bind_ok.mp ok
  obtain ⟨⟨handle, record⟩, known, ok⟩ := bind_ok.mp ok
  obtain ⟨stopped, ok⟩ := ensureOr_bind_ok.mp ok
  obtain ⟨current, ok⟩ := ensureOr_bind_ok.mp ok
  obtain ⟨_, ok⟩ := ensureOr_bind_ok.mp ok
  cases ok
  exact .retires h record (authenticateWriter_ok known) alive stopped current

theorem moves_dispose {w : World} (argumentCount : Nat) :
    Moves w (w.perform (.dispose argumentCount)).2 (w.perform (.dispose argumentCount)).1 := by
  refine moves_after fun c ok => ?_
  unfold Coordinator.dispose at ok
  obtain ⟨_, ok⟩ := ensureOr_bind_ok.mp ok
  obtain ⟨_, ok⟩ := ensureOr_bind_ok.mp ok
  obtain ⟨inactive, ok⟩ := ensureOr_bind_ok.mp ok
  exact .disposes c (Except.ok.inj ok).symm inactive

/-- A call does nothing but the moves. -/
theorem perform_moves (w : World) (call : Call) : Moves w (w.perform call).2 (w.perform call).1 := by
  cases call with
  | assertWriterLaunchAvailable options => exact moves_after fun _ _ => .idle
  | registerWriter options => exact moves_registerWriter options
  | stopAndIssueCapability options => exact moves_stopAndIssueCapability options
  | stopSettles h settled =>
      simp only [World.perform]
      split
      · rename_i record found
        split
        · rename_i pending
          exact moves_settleStop found pending settled
        · exact .idle
      · exact .idle
  | consumeCapability options => exact moves_consume options
  | snapshotSettles k settled =>
      simp only [World.perform]
      split
      · rename_i state h capability
        split
        · rename_i record found
          split
          · rename_i pending
            exact moves_settleSnapshot capability found pending settled
          · exact .idle
        · exact .idle
      · exact .idle
  | revokeWriter options => exact moves_revokeWriter options
  | retireWriter options => exact moves_retireWriter options
  | dispose argumentCount => exact moves_dispose argumentCount

/-- The system of a coordinator and its calls. -/
def system : Traces.System World Event where
  start w := w = { coordinator := .initial, stops := [], snapshots := [] }
  step w events next := ∃ call, w.perform call = (next, events)

end PortableCodex.StoppedWriter
