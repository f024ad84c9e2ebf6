import PortableCodex.StoppedWriter.Views

/-!
Slots, epochs and counters.

A slot is held by its unretired writer, a session has at most one, and the coordinator counts them
(`Tenancy`). The epochs of the writers of a slot rise (`Rising`). Only registering, retiring and disposing
write here; the other calls keep what both are about, the tenures of the writers.
-/

namespace PortableCodex.StoppedWriter

open Js ProviderState Contracts

/-- Where, under which epoch and how long a writer holds its slot. -/
structure Tenure where
  slot : SlotKey
  epoch : PositiveUint64
  retired : Bool

def WriterRecord.tenure (record : WriterRecord) : Tenure where
  slot := record.slot
  epoch := record.writerFence.fencingEpoch
  retired := decide (record.state = .retired)

namespace Coordinator

def tenure (c : Coordinator) (h : Handle) : Option Tenure := (c.writerRecords.get? h).map WriterRecord.tenure

/-- The number of slots with a current record. -/
def occupied (c : Coordinator) : Nat := c.slots.entries.countP fun e => e.2.current.isSome

/-- The number of slots of a session with a current record. -/
def occupiedBy (c : Coordinator) (sessionId : Uuid) : Nat :=
  c.slots.entries.countP fun e => e.2.current.isSome && decide (e.1.sessionId = sessionId)

end Coordinator

structure Tenancy (c : Coordinator) : Prop where
  /-- The current record of a slot is the unretired one registered there. -/
  current : ∀ slot h, (c.slots.get? slot).bind (·.current) = some h ↔
    ∃ t, c.tenure h = some t ∧ t.slot = slot ∧ t.retired = false
  /-- A session has at most one unretired writer. -/
  alone : ∀ h h' t t', c.tenure h = some t → c.tenure h' = some t' → t.retired = false →
    t'.retired = false → t.slot.sessionId = t'.slot.sessionId → h = h'
  active : c.activeWriters = c.occupied
  /-- The count of a session without writers is not stored. -/
  bySession : ∀ sessionId, c.activeWritersBySession.get? sessionId =
    if c.occupiedBy sessionId = 0 then none else some (c.occupiedBy sessionId)

structure Rising (c : Coordinator) : Prop where
  /-- A slot remembers an epoch that none of its retired writers exceeds. -/
  last : c.disposed = false → ∀ h t, c.tenure h = some t → t.retired = true →
    ∃ slot epoch, c.slots.get? t.slot = some slot ∧ slot.lastFencingEpoch = some epoch ∧ t.epoch.val ≤ epoch.val
  /-- Its unretired writer has a later one. -/
  later : ∀ h h' t t', c.tenure h = some t → c.tenure h' = some t' → t.retired = false →
    t'.retired = true → t'.slot = t.slot → t'.epoch.val < t.epoch.val

namespace Coordinator

variable {c next : Coordinator} {h : Handle} {record touched : WriterRecord}

/-! ### Tenures -/

theorem tenure_eq (found : c.writerRecords.get? h = some record) : c.tenure h = some record.tenure := by
  rw [tenure, found, Option.map_some]

theorem tenure_set (form : next.writerRecords = c.writerRecords.set h touched) (h' : Handle) :
    next.tenure h' = if h' = h then some touched.tenure else c.tenure h' := by
  unfold tenure
  rw [form, JsMap.get?_set]
  split <;> rfl

/-- A record that stays where it was, and as retired. -/
theorem tenure_kept (found : c.writerRecords.get? h = some record)
    (form : next.writerRecords = c.writerRecords.set h touched) (same : touched.tenure = record.tenure)
    (h' : Handle) : next.tenure h' = c.tenure h' := by
  rw [tenure_set form]
  split
  · rename_i eq
    rw [eq, tenure_eq found, same]
  · rfl

/-! ### Counts -/

theorem countP_set_slot (p : SlotKey × Slot → Bool) (slots : JsMap SlotKey Slot) (key : SlotKey) (slot : Slot) :
    (slots.set key slot).entries.countP p =
      (slots.delete key).entries.countP p + if p (key, slot) then 1 else 0 := by
  rw [JsMap.set_entries_perm.countP_eq, List.countP_cons]

/-- A slot without a current record is not counted. -/
theorem countP_vacant {p : SlotKey × Slot → Bool} (current : ∀ e, p e = true → e.2.current.isSome = true)
    {slots : JsMap SlotKey Slot} {key : SlotKey} (vacant : Vacant (slots.get? key)) :
    (slots.delete key).entries.countP p = slots.entries.countP p := by
  cases found : slots.get? key with
  | none => rw [JsMap.delete_entries_of_fresh found]
  | some slot =>
      have uncounted : p (key, slot) ≠ true := by
        intro counted
        have some := current _ counted
        rw [vacant slot found] at some
        cases some
      rw [(JsMap.entries_perm_delete found).countP_eq, List.countP_cons, if_neg uncounted, Nat.add_zero]

theorem countP_held {p : SlotKey × Slot → Bool} {slots : JsMap SlotKey Slot} {key : SlotKey} {slot : Slot}
    (found : slots.get? key = some slot) :
    slots.entries.countP p = (slots.delete key).entries.countP p + if p (key, slot) then 1 else 0 := by
  rw [(JsMap.entries_perm_delete found).countP_eq, List.countP_cons]

theorem activeForSession_eq (tenancy : Tenancy c) (sessionId : Uuid) :
    c.activeForSession sessionId = c.occupiedBy sessionId := by
  rw [activeForSession, tenancy.bySession]
  split
  · rename_i zero
    exact zero.symm
  · rfl

/-- A session without counted writers has only retired ones. -/
theorem retired_of_inactive (tenancy : Tenancy c) {t : Tenure}
    (inactive : c.activeForSession t.slot.sessionId = 0) (found : c.tenure h = some t) : t.retired = true := by
  by_contra unretired
  have current := (tenancy.current t.slot h).mpr ⟨t, found, rfl, Bool.eq_false_iff.mpr unretired⟩
  obtain ⟨slot, entry, held⟩ := Option.bind_eq_some_iff.mp current
  rw [activeForSession_eq tenancy] at inactive
  refine List.countP_eq_zero.mp inactive _ (JsMap.mem_entries.mpr entry) ?_
  rw [held]
  exact decide_eq_true rfl

end Coordinator

/-! ### Preservation -/

section Preservation

open Coordinator

variable {c next : Coordinator} {h : Handle} {record : WriterRecord}

theorem Tenancy.initial : Tenancy .initial where
  current _ _ := ⟨nofun, fun ⟨_, found, _⟩ => nomatch found⟩
  alone _ _ _ _ found := nomatch found
  active := rfl
  bySession _ := rfl

theorem Rising.initial : Rising .initial where
  last _ _ _ found := nomatch found
  later _ _ _ _ found := nomatch found

/-- What neither slots nor counters nor tenures show. -/
theorem Tenancy.frame (tenancy : Tenancy c) (tenure : ∀ h, next.tenure h = c.tenure h)
    (slots : next.slots = c.slots) (active : next.activeWriters = c.activeWriters)
    (bySession : next.activeWritersBySession = c.activeWritersBySession) : Tenancy next where
  current slot h := by
    rw [slots, tenure]
    exact tenancy.current slot h
  alone h h' t t' found found' := by
    rw [tenure] at found found'
    exact tenancy.alone h h' t t' found found'
  active := by
    rw [active, tenancy.active, occupied, occupied, slots]
  bySession sessionId := by
    rw [bySession, tenancy.bySession, occupiedBy, occupiedBy, slots]

theorem Rising.frame (rising : Rising c) (tenure : ∀ h, next.tenure h = c.tenure h)
    (slots : next.slots = c.slots) (disposed : next.disposed = c.disposed) : Rising next where
  last alive h t found := by
    rw [tenure] at found
    rw [slots]
    exact rising.last (disposed ▸ alive) h t found
  later h h' t t' found found' := by
    rw [tenure] at found found'
    exact rising.later h h' t t' found found'

theorem addWriter_tenure (h : Handle) :
    (c.addWriter record).tenure h = if h = c.nextHandle then some record.tenure else c.tenure h :=
  tenure_set rfl h

theorem addWriter_slots (key : SlotKey) : (c.addWriter record).slots.get? key =
    if key = record.slot then
      some { current := some c.nextHandle, lastFencingEpoch := (c.slots.get? record.slot).bind (·.lastFencingEpoch) }
    else c.slots.get? key :=
  JsMap.get?_set key

/-- A new writer where its session has no active one. -/
theorem Tenancy.addWriter (tenancy : Tenancy c) (fresh : c.tenure c.nextHandle = none)
    (unretired : record.tenure.retired = false)
    (free : c.activeForSession record.attachment.sessionId = 0) (vacant : Vacant (c.slots.get? record.slot)) :
    Tenancy (c.addWriter record) where
  current slot h := by
    rw [addWriter_slots, addWriter_tenure]
    by_cases here : slot = record.slot
    · rw [if_pos here, Option.bind_some, Option.some.injEq]
      constructor
      · rintro rfl
        exact ⟨record.tenure, if_pos rfl, here.symm, unretired⟩
      · rintro ⟨t, found, same, open_⟩
        split at found
        · rename_i eq
          exact eq.symm
        · have held := (tenancy.current slot h).mpr ⟨t, found, same, open_⟩
          obtain ⟨old, entry, current⟩ := Option.bind_eq_some_iff.mp held
          rw [here] at entry
          rw [vacant old entry] at current
          cases current
    · rw [if_neg here, tenancy.current]
      constructor
      · rintro ⟨t, found, same, open_⟩
        have other : h ≠ c.nextHandle := by
          rintro rfl
          rw [fresh] at found
          cases found
        exact ⟨t, (if_neg other).trans found, same, open_⟩
      · rintro ⟨t, found, same, open_⟩
        split at found
        · obtain rfl := Option.some.inj found
          exact absurd same.symm here
        · exact ⟨t, found, same, open_⟩
  alone h h' t t' found found' unretired unretired' session := by
    rw [addWriter_tenure] at found found'
    split at found
    · rename_i eq
      obtain rfl := Option.some.inj found
      split at found'
      · rename_i eq'
        rw [eq, eq']
      · have inactive : c.activeForSession t'.slot.sessionId = 0 := session ▸ free
        rw [retired_of_inactive tenancy inactive found'] at unretired'
        cases unretired'
    · split at found'
      · obtain rfl := Option.some.inj found'
        have inactive : c.activeForSession t.slot.sessionId = 0 := session ▸ free
        rw [retired_of_inactive tenancy inactive found] at unretired
        cases unretired
      · exact tenancy.alone h h' t t' found found' unretired unretired' session
  active := by
    have counted : (c.addWriter record).occupied = c.occupied + 1 := by
      refine (countP_set_slot _ _ _ _).trans ?_
      rw [countP_vacant (fun _ => id) vacant]
      rfl
    rw [counted, ← tenancy.active]
    rfl
  bySession sessionId := by
    have counted : (c.addWriter record).occupiedBy sessionId =
        c.occupiedBy sessionId + if record.attachment.sessionId = sessionId then 1 else 0 := by
      refine (countP_set_slot _ _ _ _).trans ?_
      rw [countP_vacant (fun e counted => (Bool.and_eq_true_iff.mp counted).1) vacant]
      simp only [Option.isSome_some, Bool.true_and, decide_eq_true_eq]
      rfl
    rw [counted]
    change (JsMap.set _ record.attachment.sessionId (_ + 1)).get? sessionId = _
    rw [JsMap.get?_set]
    by_cases here : record.attachment.sessionId = sessionId
    · rw [if_pos here.symm, if_pos here, if_neg (Nat.succ_ne_zero _), activeForSession_eq tenancy, here]
    · rw [if_neg fun eq => here eq.symm, if_neg here, Nat.add_zero, tenancy.bySession]

theorem Rising.addWriter (rising : Rising c) (alive : c.disposed = false)
    (unretired : record.tenure.retired = false)
    (follows : EpochFollows record.writerFence.fencingEpoch (c.slots.get? record.slot)) :
    Rising (c.addWriter record) where
  last _ h t found retired := by
    rw [addWriter_tenure] at found
    split at found
    · obtain rfl := Option.some.inj found
      rw [unretired] at retired
      cases retired
    · obtain ⟨slot, epoch, entry, last, le⟩ := rising.last alive h t found retired
      rw [addWriter_slots]
      by_cases here : t.slot = record.slot
      · rw [here] at entry
        exact ⟨_, epoch, if_pos here, by rw [entry, Option.bind_some, last], le⟩
      · exact ⟨slot, epoch, (if_neg here).trans entry, last, le⟩
  later h h' t t' found found' open_ retired same := by
    rw [addWriter_tenure] at found found'
    split at found'
    · obtain rfl := Option.some.inj found'
      rw [unretired] at retired
      cases retired
    · split at found
      · obtain rfl := Option.some.inj found
        obtain ⟨slot, epoch, entry, last, le⟩ := rising.last alive h' t' found' retired
        rw [same] at entry
        exact le.trans_lt (follows slot entry epoch last)
      · exact rising.later h h' t t' found found' open_ retired same

/-- The coordinator after the current writer of a slot was retired. -/
abbrev Coordinator.retire (c : Coordinator) (h : Handle) (record : WriterRecord) : Coordinator :=
  c.removeWriter h record (c.activeForSession record.attachment.sessionId)

theorem retire_tenure (h' : Handle) : (c.retire h record).tenure h' =
    if h' = h then some ⟨record.slot, record.writerFence.fencingEpoch, true⟩ else c.tenure h' :=
  @tenure_set c (c.retire h record) h { record with state := .retired } rfl h'

theorem retire_slots (key : SlotKey) : (c.retire h record).slots.get? key =
    if key = record.slot then
      some { current := none, lastFencingEpoch := some record.writerFence.fencingEpoch }
    else c.slots.get? key :=
  JsMap.get?_set key

theorem Tenancy.retire (tenancy : Tenancy c) (found : c.writerRecords.get? h = some record)
    (held : (c.slots.get? record.slot).bind (·.current) = some h) : Tenancy (c.retire h record) := by
  obtain ⟨old, entry, current⟩ := Option.bind_eq_some_iff.mp held
  refine ⟨?_, ?_, ?_, ?_⟩
  · intro slot h'
    rw [retire_slots, retire_tenure]
    by_cases here : slot = record.slot
    · rw [if_pos here, Option.bind_some]
      refine ⟨nofun, ?_⟩
      rintro ⟨t, known, same, open_⟩
      split at known
      · cases known
        cases open_
      · rename_i other
        have holds := (tenancy.current slot h').mpr ⟨t, known, same, open_⟩
        rw [here, held] at holds
        exact absurd (Option.some.inj holds).symm other
    · rw [if_neg here, tenancy.current]
      constructor
      · rintro ⟨t, known, same, open_⟩
        have other : h' ≠ h := by
          rintro rfl
          rw [tenure_eq found] at known
          obtain rfl := Option.some.inj known
          exact here same.symm
        exact ⟨t, (if_neg other).trans known, same, open_⟩
      · rintro ⟨t, known, same, open_⟩
        split at known
        · cases known
          cases open_
        · exact ⟨t, known, same, open_⟩
  · intro h₁ h₂ t₁ t₂ found₁ found₂ open₁ open₂ session
    rw [retire_tenure] at found₁ found₂
    split at found₁
    · cases found₁
      cases open₁
    · split at found₂
      · cases found₂
        cases open₂
      · exact tenancy.alone h₁ h₂ t₁ t₂ found₁ found₂ open₁ open₂ session
  · have before : c.occupied = (c.slots.delete record.slot).entries.countP (fun e => e.2.current.isSome) + 1 := by
      refine (countP_held entry).trans ?_
      rw [current]
      rfl
    have after : (c.retire h record).occupied =
        (c.slots.delete record.slot).entries.countP fun e => e.2.current.isSome :=
      countP_set_slot _ _ _ _
    rw [after]
    change c.activeWriters - 1 = _
    rw [tenancy.active, before, Nat.add_sub_cancel]
  · intro sessionId
    have before : c.occupiedBy sessionId = (c.slots.delete record.slot).entries.countP
        (fun e => e.2.current.isSome && decide (e.1.sessionId = sessionId)) +
          if record.attachment.sessionId = sessionId then 1 else 0 := by
      refine (countP_held entry).trans ?_
      simp only [current, Option.isSome_some, Bool.true_and, decide_eq_true_eq]
      rfl
    have after : (c.retire h record).occupiedBy sessionId = (c.slots.delete record.slot).entries.countP
        fun e => e.2.current.isSome && decide (e.1.sessionId = sessionId) :=
      countP_set_slot _ _ _ _
    have stored : (c.retire h record).activeWritersBySession.get? sessionId =
        if record.attachment.sessionId = sessionId then
          if c.occupiedBy sessionId = 1 then none else some (c.occupiedBy sessionId - 1)
        else c.activeWritersBySession.get? sessionId := by
      have count := activeForSession_eq tenancy record.attachment.sessionId
      unfold Coordinator.retire removeWriter
      dsimp only
      by_cases here : record.attachment.sessionId = sessionId
      · rw [if_pos here, count, here]
        split
        · rw [JsMap.get?_delete, if_pos rfl]
        · exact JsMap.get?_set_self
      · rw [if_neg here]
        split
        · exact (JsMap.get?_delete _).trans (if_neg fun eq => here eq.symm)
        · exact JsMap.get?_set_of_ne fun eq => here eq.symm
    rw [stored, after]
    by_cases here : record.attachment.sessionId = sessionId
    · rw [if_pos here] at before
      rw [if_pos here, before, Nat.add_sub_cancel]
      simp only [Nat.add_eq_right]
    · rw [if_neg here, Nat.add_zero] at before
      rw [if_neg here, tenancy.bySession, before]

theorem Rising.retire (rising : Rising c) (tenancy : Tenancy c) (alive : c.disposed = false)
    (found : c.writerRecords.get? h = some record) (unretired : record.tenure.retired = false) :
    Rising (c.retire h record) where
  last _ h' t known retired := by
    rw [retire_tenure] at known
    rw [retire_slots]
    split at known
    · obtain rfl := Option.some.inj known
      exact ⟨_, _, if_pos rfl, rfl, Nat.le_refl _⟩
    · by_cases here : t.slot = record.slot
      · refine ⟨_, _, if_pos here, rfl, ?_⟩
        exact (rising.later h h' record.tenure t (tenure_eq found) known unretired retired here).le
      · obtain ⟨slot, epoch, entry, last, le⟩ := rising.last alive h' t known retired
        exact ⟨slot, epoch, (if_neg here).trans entry, last, le⟩
  later h₁ h₂ t₁ t₂ found₁ found₂ open_ retired same := by
    rw [retire_tenure] at found₁ found₂
    split at found₁
    · cases found₁
      cases open_
    · rename_i other
      split at found₂
      · obtain rfl := Option.some.inj found₂
        have session : t₁.slot.sessionId = record.tenure.slot.sessionId := congrArg SlotKey.sessionId same.symm
        exact absurd (tenancy.alone h₁ h t₁ record.tenure found₁ (tenure_eq found) open_ unretired session) other
      · exact rising.later h₁ h₂ t₁ t₂ found₁ found₂ open_ retired same

/-- Without active writers all are retired, and nothing more is counted. -/
theorem Tenancy.dispose (tenancy : Tenancy c) (inactive : c.activeWriters = 0)
    (tenure : ∀ h, next.tenure h = c.tenure h) (slots : next.slots = .empty)
    (active : next.activeWriters = c.activeWriters) (bySession : next.activeWritersBySession = .empty) :
    Tenancy next := by
  have retired : ∀ h t, next.tenure h = some t → t.retired = true := by
    intro h t found
    rw [tenure] at found
    by_contra open_
    have held := (tenancy.current t.slot h).mpr ⟨t, found, rfl, Bool.eq_false_iff.mpr open_⟩
    obtain ⟨slot, entry, current⟩ := Option.bind_eq_some_iff.mp held
    rw [tenancy.active] at inactive
    refine List.countP_eq_zero.mp inactive _ (JsMap.mem_entries.mpr entry) ?_
    rw [current]
    rfl
  refine ⟨?_, ?_, ?_, ?_⟩
  · intro slot h
    rw [slots]
    refine ⟨nofun, ?_⟩
    rintro ⟨t, found, _, open_⟩
    rw [retired h t found] at open_
    cases open_
  · intro h h' t t' found _ open_
    rw [retired h t found] at open_
    cases open_
  · rw [active, inactive, occupied, slots]
    rfl
  · intro sessionId
    rw [bySession, occupiedBy, slots]
    rfl

theorem Rising.dispose (rising : Rising c) (tenure : ∀ h, next.tenure h = c.tenure h)
    (disposed : next.disposed = true) : Rising next where
  last alive := by
    rw [disposed] at alive
    cases alive
  later h h' t t' found found' := by
    rw [tenure] at found found'
    exact rising.later h h' t t' found found'

end Preservation

/-! ### Moves -/

section Moves

open Coordinator

variable {w next : World} {events : List Event}

/-- A move that changes one record and leaves its tenure. -/
structure Keeps (c next : Coordinator) : Prop where
  tenure : ∀ h, next.tenure h = c.tenure h
  slots : next.slots = c.slots
  active : next.activeWriters = c.activeWriters
  bySession : next.activeWritersBySession = c.activeWritersBySession
  disposed : next.disposed = c.disposed

theorem Keeps.setWriter {c : Coordinator} {h : Handle} {record touched : WriterRecord}
    (found : c.writerRecords.get? h = some record) (same : touched.tenure = record.tenure) :
    Keeps c (c.setWriter h touched) :=
  ⟨tenure_kept found rfl same, rfl, rfl, rfl, rfl⟩

theorem Keeps.setBoth {c : Coordinator} {h k : Handle} {record : WriterRecord} {after : CapabilityState}
    {state : WriterState} (found : c.writerRecords.get? h = some record) (open_ : record.state ≠ .retired)
    (stays : state ≠ .retired) : Keeps c (c.setBoth k after h record state) := by
  refine ⟨@tenure_kept c _ h record { record with state } found rfl ?_, rfl, rfl, rfl, rfl⟩
  simp only [WriterRecord.tenure, WriterRecord.slot, open_, stays]

/-- What a move does to the slots: nothing, or it registers, retires or disposes. -/
inductive Slots (w : World) : World → Prop where
  | keeps {after} : Keeps w.coordinator after.coordinator → Slots w after
  | registers {after} (record) : record.New → w.coordinator.disposed = false →
      w.coordinator.activeForSession record.attachment.sessionId = 0 →
      EpochFollows record.writerFence.fencingEpoch (w.coordinator.slots.get? record.slot) →
      Vacant (w.coordinator.slots.get? record.slot) →
      after.coordinator = w.coordinator.addWriter record → Slots w after
  | retires {after} (h record) : w.record h = some record → w.coordinator.disposed = false →
      record.state ≠ .retired → (w.coordinator.slots.get? record.slot).bind (·.current) = some h →
      after.coordinator = w.coordinator.retire h record → Slots w after
  | disposes {after} : w.coordinator.activeWriters = 0 →
      (∀ h, after.coordinator.tenure h = w.coordinator.tenure h) → after.coordinator.slots = .empty →
      after.coordinator.activeWriters = w.coordinator.activeWriters →
      after.coordinator.activeWritersBySession = .empty → after.coordinator.disposed = true → Slots w after

theorem Moves.slots (moves : Moves w events next) (linked : Linked w)
    (calm : ∀ h v, w.view h = some v → v.Calm) : Slots w next := by
  cases moves with
  | idle => exact .keeps ⟨fun _ => rfl, rfl, rfl, rfl, rfl⟩
  | fails code => exact .keeps ⟨fun _ => rfl, rfl, rfl, rfl, rfl⟩
  | registers record new alive free follows vacant => exact .registers record new alive free follows vacant rfl
  | stops h record operation found running =>
      refine .keeps (.setWriter found ?_)
      simp only [WriterRecord.tenure, WriterRecord.slot, running, reduceCtorEq]
  | issues h record found pending stopping =>
      refine .keeps ⟨tenure_kept found rfl ?_, rfl, rfl, rfl, rfl⟩
      simp only [WriterRecord.tenure, WriterRecord.slot, stopping, reduceCtorEq]
  | confirms h record code found pending other => exact .keeps (.setWriter found rfl)
  | stopFails h record code found pending =>
      refine .keeps (.setWriter found ?_)
      by_cases stopping : record.state = .stopping
      · simp only [WriterRecord.tenure, WriterRecord.slot, stopping, if_pos, reduceCtorEq]
      · simp only [WriterRecord.tenure, WriterRecord.slot, if_neg stopping]
  | samples k h record capability found issued =>
      exact .keeps (.setBoth found (fun retired => nomatch issued.symm.trans retired) nofun)
  | rejects k h record code capability found =>
      have issued := (calm h _ (view_eq found)).usable k (linked.viewOf_capability capability found)
      exact .keeps (.setBoth found (fun retired => nomatch issued.symm.trans retired) nofun)
  | consumes k h record state capability found pending unrequested =>
      have sampling := linked.viewOf_snapshotPending capability found
      rw [decide_eq_true pending] at sampling
      have consuming := (calm h _ (view_eq found)).sampling sampling
      exact .keeps (.setBoth found (fun retired => nomatch consuming.symm.trans retired) nofun)
  | doubts k h record state code capability found pending =>
      have sampling := linked.viewOf_snapshotPending capability found
      rw [decide_eq_true pending] at sampling
      have consuming := (calm h _ (view_eq found)).sampling sampling
      exact .keeps (.setBoth found (fun retired => nomatch consuming.symm.trans retired) nofun)
  | requests h record found consuming => exact .keeps (.setWriter found rfl)
  | revokes h record found revocable =>
      have open_ : record.state ≠ .retired := by
        intro retired
        rw [retired] at revocable
        exact absurd revocable (by decide)
      rcases revoke_cases linked found with ⟨k, _, _, form⟩ | ⟨_, form⟩
      · rw [form]
        exact .keeps (.setBoth found open_ nofun)
      · rw [form]
        refine .keeps (.setWriter found ?_)
        simp only [WriterRecord.tenure, WriterRecord.slot, open_, reduceCtorEq]
  | retires h record found alive stopped current =>
      refine .retires h record found alive ?_ current rfl
      intro retired
      rcases stopped with state | ⟨state, _⟩
      · exact absurd (state.symm.trans retired) nofun
      · exact absurd (state.symm.trans retired) nofun
  | disposes c form inactive =>
      subst form
      exact .disposes inactive (fun _ => rfl) rfl rfl rfl rfl

theorem tenure_next (linked : Linked w) : w.coordinator.tenure w.coordinator.nextHandle = none := by
  unfold Coordinator.tenure
  cases known : w.record w.coordinator.nextHandle with
  | none => exact congrArg (Option.map _) known
  | some r => exact absurd rfl (linked.writers known).ne

theorem WriterRecord.New.unretired {record : WriterRecord} (new : record.New) :
    record.tenure.retired = false := by
  simp only [WriterRecord.tenure, new.running, reduceCtorEq, decide_false]

theorem Slots.tenancy (moved : Slots w next) (linked : Linked w) (tenancy : Tenancy w.coordinator) :
    Tenancy next.coordinator := by
  cases moved with
  | keeps kept => exact tenancy.frame kept.tenure kept.slots kept.active kept.bySession
  | registers record new alive free follows vacant form =>
      rw [form]
      exact tenancy.addWriter (tenure_next linked) new.unretired free vacant
  | retires h record found alive open_ current form =>
      rw [form]
      exact tenancy.retire found current
  | disposes inactive tenure slots active bySession disposed =>
      exact tenancy.dispose inactive tenure slots active bySession

theorem Slots.rising (moved : Slots w next) (tenancy : Tenancy w.coordinator)
    (rising : Rising w.coordinator) : Rising next.coordinator := by
  cases moved with
  | keeps kept => exact rising.frame kept.tenure kept.slots kept.disposed
  | registers record new alive free follows vacant form =>
      rw [form]
      exact rising.addWriter alive new.unretired follows
  | retires h record found alive open_ current form =>
      rw [form]
      exact rising.retire tenancy alive found (decide_eq_false open_)
  | disposes inactive tenure slots active bySession disposed => exact rising.dispose tenure disposed

end Moves

end PortableCodex.StoppedWriter
