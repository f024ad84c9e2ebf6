import PortableCodex.StoppedWriter.Life

/-!
The life of one writer.

`View` is what a world shows of one writer: the fields of its record, the state of its capability, and
whether its stop or its snapshot has not settled. In a `Linked` world every move changes the view of at
most one writer, by one `Change` of its life (`Moves.view`).
-/

namespace PortableCodex.StoppedWriter

open Js ProviderState Contracts

abbrev World.record (w : World) (h : Handle) : Option WriterRecord := w.coordinator.writerRecords.get? h

abbrev World.capability (w : World) (k : Handle) : Option CapabilityRecord :=
  w.coordinator.capabilityRecords.get? k

/-! ### Links -/

/-- Handles are new when they are made, a writer and its capability name each other, and what has not
settled belongs to a known writer or capability, once. -/
structure Linked (w : World) : Prop where
  writers : ∀ {h r}, w.record h = some r → h < w.coordinator.nextHandle
  capabilities : ∀ {k cr}, w.capability k = some cr → k < w.coordinator.nextHandle
  owner : ∀ {h r k}, w.record h = some r → r.capabilityRecord = some k → ∃ state, w.capability k = some ⟨state, h⟩
  held : ∀ {k state h}, w.capability k = some ⟨state, h⟩ → ∃ r, w.record h = some r ∧ r.capabilityRecord = some k
  stops : ∀ {h}, h ∈ w.stops → ∃ r, w.record h = some r
  snapshots : ∀ {k}, k ∈ w.snapshots → ∃ cr, w.capability k = some cr
  stopsNodup : w.stops.Nodup
  snapshotsNodup : w.snapshots.Nodup

namespace Linked

variable {w : World} {h k : Handle} {record next : WriterRecord}

theorem initial : Linked { coordinator := .initial, stops := [], snapshots := [] } where
  writers found := nomatch found
  capabilities found := nomatch found
  owner found := nomatch found
  held found := nomatch found
  stops inside := nomatch inside
  snapshots inside := nomatch inside
  stopsNodup := List.nodup_nil
  snapshotsNodup := List.nodup_nil

/-- A capability belongs to one writer. -/
theorem owner_unique (linked : Linked w) {other : Handle} {r : WriterRecord} {state : CapabilityState}
    (capability : w.capability k = some ⟨state, h⟩) (found : w.record other = some r)
    (holds : r.capabilityRecord = some k) : other = h := by
  obtain ⟨_, owned⟩ := linked.owner found holds
  rw [capability] at owned
  cases owned
  rfl

theorem setWriter (linked : Linked w) (found : w.record h = some record)
    (same : next.capabilityRecord = record.capabilityRecord) :
    Linked { w with coordinator := w.coordinator.setWriter h next } where
  writers := by
    intro h' r known
    change (JsMap.set _ h next).get? h' = some r at known
    rw [JsMap.get?_set] at known
    split at known
    · rename_i eq
      rw [eq]
      exact linked.writers found
    · exact linked.writers known
  capabilities := linked.capabilities
  owner := by
    intro h' r k known holds
    change (JsMap.set _ h next).get? h' = some r at known
    rw [JsMap.get?_set] at known
    split at known
    · rename_i eq
      obtain rfl := Option.some.inj known
      rw [eq]
      exact linked.owner found (same ▸ holds)
    · exact linked.owner known holds
  held := by
    intro k state h' capability
    obtain ⟨r, known, holds⟩ := linked.held capability
    by_cases eq : h' = h
    · subst eq
      rw [found] at known
      obtain rfl := Option.some.inj known
      exact ⟨next, JsMap.get?_set_self, same.trans holds⟩
    · exact ⟨r, (JsMap.get?_set_of_ne eq).trans known, holds⟩
  stops := by
    intro h' inside
    obtain ⟨r, known⟩ := linked.stops inside
    by_cases eq : h' = h
    · exact ⟨next, eq ▸ JsMap.get?_set_self⟩
    · exact ⟨r, (JsMap.get?_set_of_ne eq).trans known⟩
  snapshots := linked.snapshots
  stopsNodup := linked.stopsNodup
  snapshotsNodup := linked.snapshotsNodup

/-- A capability with a new state and the same writer. -/
theorem setCapability (linked : Linked w) {before after : CapabilityState}
    (capability : w.capability k = some ⟨before, h⟩) :
    Linked { w with coordinator := w.coordinator.setCapability k ⟨after, h⟩ } where
  writers := linked.writers
  capabilities := by
    intro k' cr known
    change (JsMap.set _ k _).get? k' = some cr at known
    rw [JsMap.get?_set] at known
    split at known
    · rename_i eq
      rw [eq]
      exact linked.capabilities capability
    · exact linked.capabilities known
  owner := by
    intro h' r k' found holds
    obtain ⟨state, known⟩ := linked.owner found holds
    by_cases eq : k' = k
    · subst eq
      rw [capability] at known
      cases known
      exact ⟨after, JsMap.get?_set_self⟩
    · exact ⟨state, (JsMap.get?_set_of_ne eq).trans known⟩
  held := by
    intro k' state h' known
    change (JsMap.set _ k _).get? k' = some _ at known
    rw [JsMap.get?_set] at known
    split at known
    · rename_i eq
      cases known
      rw [eq]
      exact linked.held capability
    · exact linked.held known
  stops := linked.stops
  snapshots := by
    intro k' inside
    obtain ⟨cr, known⟩ := linked.snapshots inside
    by_cases eq : k' = k
    · subst eq
      exact ⟨_, JsMap.get?_set_self⟩
    · exact ⟨cr, (JsMap.get?_set_of_ne eq).trans known⟩
  stopsNodup := linked.stopsNodup
  snapshotsNodup := linked.snapshotsNodup

theorem setBoth (linked : Linked w) {before after : CapabilityState} {state : WriterState}
    (capability : w.capability k = some ⟨before, h⟩) (found : w.record h = some record) :
    Linked { w with coordinator := w.coordinator.setBoth k after h record state } :=
  (@setWriter w h record { record with state } linked found rfl).setCapability capability

/-- A writer that had no capability is issued the next one. -/
theorem issue (linked : Linked w) (found : w.record h = some record) (unissued : record.capabilityRecord = none) :
    Linked { w with coordinator := w.coordinator.issue h next } where
  writers := by
    intro h' r known
    change (JsMap.set _ h _).get? h' = some r at known
    rw [JsMap.get?_set] at known
    split at known
    · rename_i eq
      rw [eq]
      exact Nat.lt_succ_of_lt (linked.writers found)
    · exact Nat.lt_succ_of_lt (linked.writers known)
  capabilities := by
    intro k' cr known
    change (JsMap.set _ w.coordinator.nextHandle _).get? k' = some cr at known
    rw [JsMap.get?_set] at known
    split at known
    · rename_i eq
      rw [eq]
      exact Nat.lt_succ_self _
    · exact Nat.lt_succ_of_lt (linked.capabilities known)
  owner := by
    intro h' r k' known holds
    change (JsMap.set _ h _).get? h' = some r at known
    rw [JsMap.get?_set] at known
    split at known
    · rename_i eq
      obtain rfl := Option.some.inj known
      cases holds
      exact ⟨.issued, eq ▸ JsMap.get?_set_self⟩
    · obtain ⟨state, owned⟩ := linked.owner known holds
      exact ⟨state, (JsMap.get?_set_of_ne (linked.capabilities owned).ne).trans owned⟩
  held := by
    intro k' state h' known
    change (JsMap.set _ w.coordinator.nextHandle _).get? k' = some _ at known
    rw [JsMap.get?_set] at known
    split at known
    · rename_i eq
      cases known
      exact ⟨_, JsMap.get?_set_self, eq ▸ rfl⟩
    · obtain ⟨r, owned, holds⟩ := linked.held known
      have other : h' ≠ h := by
        intro eq
        rw [eq, found] at owned
        obtain rfl := Option.some.inj owned
        rw [unissued] at holds
        cases holds
      exact ⟨r, (JsMap.get?_set_of_ne other).trans owned, holds⟩
  stops := by
    intro h' inside
    obtain ⟨r, known⟩ := linked.stops inside
    by_cases eq : h' = h
    · subst eq
      exact ⟨_, JsMap.get?_set_self⟩
    · exact ⟨r, (JsMap.get?_set_of_ne eq).trans known⟩
  snapshots := by
    intro k' inside
    obtain ⟨cr, known⟩ := linked.snapshots inside
    exact ⟨cr, (JsMap.get?_set_of_ne (linked.capabilities known).ne).trans known⟩
  stopsNodup := linked.stopsNodup
  snapshotsNodup := linked.snapshotsNodup

theorem addWriter (linked : Linked w) (new : record.New) :
    Linked { w with coordinator := w.coordinator.addWriter record } where
  writers := by
    intro h' r known
    change (JsMap.set _ w.coordinator.nextHandle record).get? h' = some r at known
    rw [JsMap.get?_set] at known
    split at known
    · rename_i eq
      rw [eq]
      exact Nat.lt_succ_self _
    · exact Nat.lt_succ_of_lt (linked.writers known)
  capabilities known := Nat.lt_succ_of_lt (linked.capabilities known)
  owner := by
    intro h' r k' known holds
    change (JsMap.set _ w.coordinator.nextHandle record).get? h' = some r at known
    rw [JsMap.get?_set] at known
    split at known
    · obtain rfl := Option.some.inj known
      rw [new.unissued] at holds
      cases holds
    · exact linked.owner known holds
  held := by
    intro k' state h' known
    obtain ⟨r, owned, holds⟩ := linked.held known
    exact ⟨r, (JsMap.get?_set_of_ne (linked.writers owned).ne).trans owned, holds⟩
  stops := by
    intro h' inside
    obtain ⟨r, known⟩ := linked.stops inside
    exact ⟨r, (JsMap.get?_set_of_ne (linked.writers known).ne).trans known⟩
  snapshots := linked.snapshots
  stopsNodup := linked.stopsNodup
  snapshotsNodup := linked.snapshotsNodup

theorem withStops (linked : Linked w) {stops : List Handle} (nodup : stops.Nodup)
    (known : ∀ {h}, h ∈ stops → ∃ r, w.record h = some r) : Linked { w with stops } where
  writers := linked.writers
  capabilities := linked.capabilities
  owner := linked.owner
  held := linked.held
  stops := known
  snapshots := linked.snapshots
  stopsNodup := nodup
  snapshotsNodup := linked.snapshotsNodup

theorem withSnapshots (linked : Linked w) {snapshots : List Handle} (nodup : snapshots.Nodup)
    (known : ∀ {k}, k ∈ snapshots → ∃ cr, w.capability k = some cr) : Linked { w with snapshots } where
  writers := linked.writers
  capabilities := linked.capabilities
  owner := linked.owner
  held := linked.held
  stops := linked.stops
  snapshots := known
  stopsNodup := linked.stopsNodup
  snapshotsNodup := nodup

theorem setWriterStops (linked : Linked w) (found : w.record h = some record)
    (same : next.capabilityRecord = record.capabilityRecord) {stops : List Handle} (nodup : stops.Nodup)
    (known : ∀ {h'}, h' ∈ stops → h' = h ∨ h' ∈ w.stops) :
    Linked { w with coordinator := w.coordinator.setWriter h next, stops } := by
  have written := linked.setWriter found same
  refine written.withStops nodup ?_
  intro h' inside
  rcases known inside with rfl | inside
  · exact ⟨next, JsMap.get?_set_self⟩
  · exact written.stops inside

theorem eraseStop (linked : Linked w) : Linked { w with stops := w.stops.erase h } :=
  linked.withStops (linked.stopsNodup.erase h) fun inside => linked.stops (List.mem_of_mem_erase inside)

theorem eraseSnapshot (linked : Linked w) : Linked { w with snapshots := w.snapshots.erase k } :=
  linked.withSnapshots (linked.snapshotsNodup.erase k) fun inside =>
    linked.snapshots (List.mem_of_mem_erase inside)

end Linked

/-! ### Views -/

/-- One writer as the world shows it. -/
structure View where
  slot : SlotKey
  epoch : PositiveUint64
  state : WriterState
  stopEstablished : Bool
  revocationRequested : Bool
  capability : Option (Handle × CapabilityState)
  stopPending : Bool
  snapshotPending : Bool

def World.viewOf (w : World) (h : Handle) (record : WriterRecord) : View where
  slot := record.slot
  epoch := record.writerFence.fencingEpoch
  state := record.state
  stopEstablished := record.stopEstablished
  revocationRequested := record.revocationRequested
  capability := record.capabilityRecord.bind fun k => (w.capability k).map fun cr => (k, cr.state)
  stopPending := decide (h ∈ w.stops)
  snapshotPending := record.capabilityRecord.any fun k => decide (k ∈ w.snapshots)

def World.view (w : World) (h : Handle) : Option View := (w.record h).map (w.viewOf h)

/-- A change in the life of a writer, with its events. -/
inductive Change (h : Handle) (v : View) : List Event → View → Prop where
  | stops : v.state = .running → Change h v [.stopCalled h] { v with state := .stopping, stopPending := true }
  | issues (k) : v.stopPending = true → v.state = .stopping →
      Change h v [.stopConfirmed h, .issued h k] { v with
        state := .issued, stopEstablished := true, capability := some (k, .issued), stopPending := false,
        snapshotPending := false }
  | confirms (code) : v.stopPending = true → v.state ≠ .stopping →
      Change h v [.stopConfirmed h, .failed code] { v with stopEstablished := true, stopPending := false }
  | stopFails (code) : v.stopPending = true → Change h v [.failed code] { v with
        state := if v.state = .stopping then .stopUncertain else v.state
        stopEstablished := false, stopPending := false }
  | samples (k) : v.capability = some (k, .issued) → v.state = .issued →
      Change h v [.snapshotCalled h k] { v with
        state := .consuming, capability := some (k, .consuming), snapshotPending := true }
  | rejects (k code) : v.capability = some (k, .issued) →
      Change h v [.revoked h, .failed code] { v with state := .revoked, capability := some (k, .revoked) }
  | consumes (k state) : v.capability = some (k, state) → v.snapshotPending = true →
      v.revocationRequested = false → Change h v [.consumed h k] { v with
        state := .consumed, capability := some (k, .consumed), snapshotPending := false }
  | doubts (k state code) : v.capability = some (k, state) → v.snapshotPending = true →
      Change h v [.failed code] { v with
        state := .snapshotUncertain, capability := some (k, .consumed), snapshotPending := false }
  | requests : v.state = .consuming → Change h v [.revoked h] { v with revocationRequested := true }
  | revokes : v.state ∈ Coordinator.revocableStates → Change h v [.revoked h] { v with
        state := .revoked
        capability := v.capability.map fun c => (c.1, if c.2 = .issued then .revoked else c.2) }
  | retires : v.state = .consumed ∨ v.state = .revoked ∧ v.stopEstablished = true →
      Change h v [.retired h] { v with state := .retired }

section Frames

variable {w next : World} {h k : Handle} {record : WriterRecord}

theorem view_eq (found : w.record h = some record) : w.view h = some (w.viewOf h record) := by
  rw [World.view, found, Option.map_some]

theorem viewOf_congr {r : WriterRecord} (stops : h ∈ next.stops ↔ h ∈ w.stops)
    (capability : ∀ k, r.capabilityRecord = some k →
      next.capability k = w.capability k ∧ (k ∈ next.snapshots ↔ k ∈ w.snapshots)) :
    next.viewOf h r = w.viewOf h r := by
  cases holds : r.capabilityRecord with
  | none => simp only [World.viewOf, holds, Option.bind_none, Option.any_none, stops]
  | some k =>
      obtain ⟨same, snapshots⟩ := capability k holds
      simp only [World.viewOf, holds, Option.bind_some, Option.any_some, stops, same, snapshots]

/-- The view of a writer that a move does not touch. -/
theorem view_congr (records : next.record h = w.record h) (stops : h ∈ next.stops ↔ h ∈ w.stops)
    (capability : ∀ r k, w.record h = some r → r.capabilityRecord = some k →
      next.capability k = w.capability k ∧ (k ∈ next.snapshots ↔ k ∈ w.snapshots)) :
    next.view h = w.view h := by
  unfold World.view
  rw [records]
  cases found : w.record h with
  | none => rfl
  | some r => rw [Option.map_some, Option.map_some, viewOf_congr stops fun k => capability r k found]

/-- The views after a move that touches one writer. -/
theorem view_touch {touched : WriterRecord} {seen : View}
    (records : ∀ h', next.record h' = if h' = h then some touched else w.record h')
    (stops : ∀ h', h' ≠ h → (h' ∈ next.stops ↔ h' ∈ w.stops))
    (capability : ∀ h' r k, h' ≠ h → w.record h' = some r → r.capabilityRecord = some k →
      next.capability k = w.capability k ∧ (k ∈ next.snapshots ↔ k ∈ w.snapshots))
    (self : next.viewOf h touched = seen) (h' : Handle) :
    next.view h' = if h' = h then some seen else w.view h' := by
  split
  · rename_i eq
    rw [eq, ← self]
    exact view_eq ((records h).trans (if_pos rfl))
  · rename_i other
    exact view_congr ((records h').trans (if_neg other)) (stops h' other) fun r k =>
      capability h' r k other

/-- A move that changes the state of a writer and its capability does not touch other capabilities. -/
theorem Linked.others (linked : Linked w) {state : CapabilityState}
    (capability : w.capability k = some ⟨state, h⟩) {h' k' : Handle} {r : WriterRecord} (other : h' ≠ h)
    (found : w.record h' = some r) (holds : r.capabilityRecord = some k') : k' ≠ k := by
  rintro rfl
  exact other (linked.owner_unique capability found holds)

theorem Linked.viewOf_capability (linked : Linked w) {state : CapabilityState}
    (capability : w.capability k = some ⟨state, h⟩) (found : w.record h = some record) :
    (w.viewOf h record).capability = some (k, state) := by
  obtain ⟨r, same, holds⟩ := linked.held capability
  rw [found] at same
  obtain rfl := Option.some.inj same
  simp only [World.viewOf, holds, Option.bind_some, capability, Option.map_some]

theorem Linked.viewOf_snapshotPending (linked : Linked w) {state : CapabilityState}
    (capability : w.capability k = some ⟨state, h⟩) (found : w.record h = some record) :
    (w.viewOf h record).snapshotPending = decide (k ∈ w.snapshots) := by
  obtain ⟨r, same, holds⟩ := linked.held capability
  rw [found] at same
  obtain rfl := Option.some.inj same
  simp only [World.viewOf, holds, Option.any_some]

theorem view_setWriter (touched : WriterRecord) {stops : List Handle}
    (same : touched.capabilityRecord = record.capabilityRecord)
    (others : ∀ h', h' ≠ h → (h' ∈ stops ↔ h' ∈ w.stops)) (h' : Handle) :
    World.view { w with coordinator := w.coordinator.setWriter h touched, stops } h' =
      if h' = h then some { w.viewOf h record with
        slot := touched.slot
        epoch := touched.writerFence.fencingEpoch
        state := touched.state
        stopEstablished := touched.stopEstablished
        revocationRequested := touched.revocationRequested
        stopPending := decide (h ∈ stops) }
      else w.view h' := by
  refine @view_touch w _ h touched _ (fun h' => JsMap.get?_set h') others ?_ ?_ h'
  · intro _ _ _ _ _ _
    exact ⟨rfl, Iff.rfl⟩
  · simp only [World.viewOf, Coordinator.setWriter, same]

theorem view_setBoth (linked : Linked w) {before after : CapabilityState} {state : WriterState}
    {snapshots : List Handle} (capability : w.capability k = some ⟨before, h⟩)
    (found : w.record h = some record) (others : ∀ k', k' ≠ k → (k' ∈ snapshots ↔ k' ∈ w.snapshots))
    (h' : Handle) :
    World.view { w with coordinator := w.coordinator.setBoth k after h record state, snapshots } h' =
      if h' = h then some { w.viewOf h record with
        state
        capability := some (k, after)
        snapshotPending := decide (k ∈ snapshots) }
      else w.view h' := by
  obtain ⟨r, same, holds⟩ := linked.held capability
  rw [found] at same
  obtain rfl := Option.some.inj same
  refine @view_touch w { w with coordinator := w.coordinator.setBoth k after h record state, snapshots } h
    { record with state } _ (fun h' => JsMap.get?_set h') (fun _ _ => Iff.rfl) ?_ ?_ h'
  · intro h' r k' other known owned
    have ne := linked.others capability other known owned
    exact ⟨JsMap.get?_set_of_ne ne, others k' ne⟩
  · have self : World.capability { w with
        coordinator := w.coordinator.setBoth k after h record state, snapshots } k = some ⟨after, h⟩ :=
      JsMap.get?_set_self
    simp only [World.viewOf, holds, Option.bind_some, Option.any_some, self, Option.map_some]
    rfl

theorem view_issue (linked : Linked w) {touched : WriterRecord} {stops : List Handle}
    (others : ∀ h', h' ≠ h → (h' ∈ stops ↔ h' ∈ w.stops)) (h' : Handle) :
    World.view { w with coordinator := w.coordinator.issue h touched, stops } h' =
      if h' = h then some {
        slot := touched.slot
        epoch := touched.writerFence.fencingEpoch
        state := .issued
        stopEstablished := touched.stopEstablished
        revocationRequested := touched.revocationRequested
        capability := some (w.coordinator.nextHandle, .issued)
        stopPending := decide (h ∈ stops)
        snapshotPending := false }
      else w.view h' := by
  refine @view_touch w { w with coordinator := w.coordinator.issue h touched, stops } h
    { touched with capabilityRecord := some w.coordinator.nextHandle, state := .issued } _
    (fun h' => JsMap.get?_set h') others ?_ ?_ h'
  · intro h' r k' _ known owned
    obtain ⟨state, capability⟩ := linked.owner known owned
    exact ⟨JsMap.get?_set_of_ne (linked.capabilities capability).ne, Iff.rfl⟩
  · have self : World.capability { w with coordinator := w.coordinator.issue h touched, stops }
        w.coordinator.nextHandle = some ⟨.issued, h⟩ := JsMap.get?_set_self
    have fresh : w.coordinator.nextHandle ∉ w.snapshots := by
      intro inside
      obtain ⟨cr, known⟩ := linked.snapshots inside
      exact (linked.capabilities known).ne rfl
    simp only [World.viewOf, Option.bind_some, Option.any_some, self, Option.map_some, fresh, decide_false]
    rfl

/-- A writer that was just registered. -/
def View.new (record : WriterRecord) : View where
  slot := record.slot
  epoch := record.writerFence.fencingEpoch
  state := .running
  stopEstablished := false
  revocationRequested := false
  capability := none
  stopPending := false
  snapshotPending := false

theorem view_addWriter (linked : Linked w) (new : record.New) (h' : Handle) :
    World.view { w with coordinator := w.coordinator.addWriter record } h' =
      if h' = w.coordinator.nextHandle then some (View.new record) else w.view h' := by
  refine @view_touch w { w with coordinator := w.coordinator.addWriter record } _ record _
    (fun h' => JsMap.get?_set h') (fun _ _ => Iff.rfl) (fun _ _ _ _ _ _ => ⟨rfl, Iff.rfl⟩) ?_ h'
  have fresh : w.coordinator.nextHandle ∉ w.stops := by
    intro inside
    obtain ⟨r, known⟩ := linked.stops inside
    exact (linked.writers known).ne rfl
  simp only [World.viewOf, View.new, new.running, new.unissued, new.unconfirmed, new.unrevoked, fresh,
    Option.bind_none, Option.any_none, decide_false]

/-- Revocation writes both records if the capability is still issued, and only the writer's otherwise. -/
theorem revoke_cases (linked : Linked w) (found : w.record h = some record) :
    (∃ k, w.capability k = some ⟨.issued, h⟩ ∧ record.capabilityRecord = some k ∧
      w.coordinator.revoke h record = w.coordinator.setBoth k .revoked h record .revoked) ∨
    (∀ k state, (w.viewOf h record).capability = some (k, state) → state ≠ .issued) ∧
      w.coordinator.revoke h record = w.coordinator.setWriter h { record with state := .revoked } := by
  cases holds : record.capabilityRecord with
  | none =>
      refine .inr ⟨?_, ?_⟩
      · intro k state seen
        simp only [World.viewOf, holds, Option.bind_none, reduceCtorEq] at seen
      · simp only [Coordinator.revoke, holds]
  | some k =>
      obtain ⟨state, capability⟩ := linked.owner found holds
      cases state with
      | issued =>
          refine .inl ⟨k, capability, rfl, ?_⟩
          unfold Coordinator.revoke
          dsimp only
          split
          · rename_i none
            rw [holds] at none
            cases none
          · rename_i named
            rw [holds] at named
            obtain rfl := Option.some.inj named
            simp only [capability]
            rfl
      | consuming | consumed | revoked =>
          refine .inr ⟨?_, ?_⟩
          · intro k' state seen
            simp only [World.viewOf, holds, Option.bind_some, capability, Option.map_some] at seen
            cases seen
            exact CapabilityState.noConfusion
          · simp only [Coordinator.revoke, holds, capability]

theorem Linked.revoke (linked : Linked w) (found : w.record h = some record) :
    Linked { w with coordinator := w.coordinator.revoke h record } := by
  rcases revoke_cases linked found with ⟨k, capability, _, form⟩ | ⟨_, form⟩
  · rw [form]
    exact linked.setBoth capability found
  · rw [form]
    exact linked.setWriter found rfl

theorem view_revoke (linked : Linked w) (found : w.record h = some record) (h' : Handle) :
    World.view { w with coordinator := w.coordinator.revoke h record } h' =
      if h' = h then some { w.viewOf h record with
        state := .revoked
        capability := (w.viewOf h record).capability.map fun c =>
          (c.1, if c.2 = .issued then .revoked else c.2) }
      else w.view h' := by
  rcases revoke_cases linked found with ⟨k, capability, holds, form⟩ | ⟨other, form⟩
  · rw [form, view_setBoth linked capability found fun _ _ => Iff.rfl]
    simp only [World.viewOf, holds, Option.bind_some, capability, Option.map_some, Option.any_some, if_pos]
  · rw [form, view_setWriter { record with state := .revoked } rfl fun _ _ => Iff.rfl]
    have kept : ((w.viewOf h record).capability.map fun c =>
        (c.1, if c.2 = .issued then CapabilityState.revoked else c.2)) = (w.viewOf h record).capability := by
      cases seen : (w.viewOf h record).capability with
      | none => rfl
      | some c => rw [Option.map_some, if_neg (other c.1 c.2 seen)]
    rw [kept]
    rfl

end Frames

/-! ### Moves -/

/-- The writer an event is about. -/
def Event.writer : Event → Option Handle
  | .registered h _ _ => some h
  | .stopCalled h => some h
  | .stopConfirmed h => some h
  | .issued h _ => some h
  | .snapshotCalled h _ => some h
  | .consumed h _ => some h
  | .revoked h => some h
  | .retired h => some h
  | .disposed => none
  | .failed _ => none

/-- What a move relies on in the life of a writer. -/
structure View.Calm (v : View) : Prop where
  running : v.state = .running → v.stopPending = false
  stopping : v.stopPending = true → v.capability = none
  issued : v.state = .issued → v.snapshotPending = false
  usable : ∀ k, v.capability = some (k, .issued) → v.state = .issued
  sampling : v.snapshotPending = true → v.state = .consuming

/-- What a move shows of the writers. -/
inductive Seen (w : World) : List Event → World → Prop where
  | same {events next} : (∀ h, next.view h = w.view h) → (∀ e ∈ events, e.writer = none) → Seen w events next
  | changes {events next} (h v v') : w.view h = some v → Change h v events v' →
      (∀ h', next.view h' = if h' = h then some v' else w.view h') → Seen w events next
  | registers {next} (record) : w.view w.coordinator.nextHandle = none →
      (∀ h', next.view h' = if h' = w.coordinator.nextHandle then some (View.new record) else w.view h') →
      Seen w [.registered w.coordinator.nextHandle record.slot record.writerFence.fencingEpoch] next

section Moves

variable {w next : World} {events : List Event}

theorem Moves.seen (moves : Moves w events next) (linked : Linked w) : Seen w events next := by
  have erased : ∀ h h', h' ≠ h → (h' ∈ w.stops.erase h ↔ h' ∈ w.stops) := fun h h' other =>
    List.mem_erase_of_ne other
  have settled : ∀ h, decide (h ∈ w.stops.erase h) = false := fun h =>
    decide_eq_false (linked.stopsNodup.not_mem_erase)
  have unchanged : ∀ h h', h' ≠ h → (h' ∈ w.stops ↔ h' ∈ w.stops) := fun _ _ _ => Iff.rfl
  cases moves with
  | idle => exact .same (fun _ => rfl) (fun _ member => nomatch member)
  | fails code => exact .same (fun _ => rfl) (fun _ member => List.eq_of_mem_singleton member ▸ rfl)
  | registers record new alive free follows vacant =>
      refine .registers record ?_ (view_addWriter linked new)
      cases known : w.record w.coordinator.nextHandle with
      | none => rw [World.view, known, Option.map_none]
      | some r => exact absurd rfl (linked.writers known).ne
  | stops h record operation found running =>
      refine .changes h _ _ (view_eq found) (.stops running) fun h' => ?_
      rw [view_setWriter _ rfl fun h' other => List.mem_cons.trans (or_iff_right other)]
      simp only [World.viewOf, List.mem_cons_self, decide_true]
      rfl
  | issues h record found pending stopping =>
      refine .changes h _ _ (view_eq found) (.issues w.coordinator.nextHandle (decide_eq_true pending) stopping)
        fun h' => ?_
      rw [view_issue linked (erased h), settled]
      rfl
  | confirms h record code found pending other =>
      refine .changes h _ _ (view_eq found) (.confirms code (decide_eq_true pending) other) fun h' => ?_
      rw [view_setWriter { record with stopEstablished := true } rfl (erased h), settled]
      rfl
  | stopFails h record code found pending =>
      refine .changes h _ _ (view_eq found) (.stopFails code (decide_eq_true pending)) fun h' => ?_
      rw [view_setWriter _ rfl (erased h), settled]
      rfl
  | samples k h record capability found issued =>
      refine .changes h _ _ (view_eq found) (.samples k (linked.viewOf_capability capability found) issued)
        fun h' => ?_
      rw [view_setBoth linked capability found fun k' other => List.mem_cons.trans (or_iff_right other)]
      simp only [List.mem_cons_self, decide_true]
  | rejects k h record code capability found =>
      refine .changes h _ _ (view_eq found) (.rejects k code (linked.viewOf_capability capability found))
        fun h' => ?_
      rw [view_setBoth linked capability found fun _ _ => Iff.rfl]
      rw [linked.viewOf_snapshotPending capability found]
  | consumes k h record state capability found pending unrequested =>
      refine .changes h _ _ (view_eq found) (.consumes k state (linked.viewOf_capability capability found)
        ?_ unrequested) fun h' => ?_
      · rw [linked.viewOf_snapshotPending capability found, decide_eq_true pending]
      · rw [view_setBoth linked capability found fun k' other => List.mem_erase_of_ne other,
          decide_eq_false linked.snapshotsNodup.not_mem_erase]
  | doubts k h record state code capability found pending =>
      refine .changes h _ _ (view_eq found) (.doubts k state code (linked.viewOf_capability capability found)
        ?_) fun h' => ?_
      · rw [linked.viewOf_snapshotPending capability found, decide_eq_true pending]
      · rw [view_setBoth linked capability found fun k' other => List.mem_erase_of_ne other,
          decide_eq_false linked.snapshotsNodup.not_mem_erase]
  | requests h record found consuming =>
      refine .changes h _ _ (view_eq found) (.requests consuming) fun h' => ?_
      rw [view_setWriter { record with revocationRequested := true } rfl (unchanged h)]
      rfl
  | revokes h record found revocable =>
      exact .changes h _ _ (view_eq found) (.revokes revocable) (view_revoke linked found)
  | retires h record found alive stopped current =>
      refine .changes h _ _ (view_eq found) (.retires stopped) ?_
      refine @view_touch w { w with coordinator := w.coordinator.removeWriter h record _ } h
        { record with state := .retired } _ (fun h' => JsMap.get?_set h') (fun _ _ => Iff.rfl)
        (fun _ _ _ _ _ _ => ⟨rfl, Iff.rfl⟩) rfl
  | disposes c form inactive =>
      subst form
      exact .same (fun _ => rfl) (fun _ member => List.eq_of_mem_singleton member ▸ rfl)

/-- A capability is a new handle. -/
theorem Moves.issued (moves : Moves w events next) {h k : Handle} (issued : .issued h k ∈ events) :
    k = w.coordinator.nextHandle := by
  cases moves <;> simp only [List.mem_cons, List.not_mem_nil, reduceCtorEq, or_false, false_or] at issued
  cases issued
  rfl

/-- What was checked of a writer that is registered. -/
theorem Moves.registered (moves : Moves w events next) {h : Handle} {slot : SlotKey} {epoch : PositiveUint64}
    (registered : .registered h slot epoch ∈ events) : w.coordinator.disposed = false ∧
      w.coordinator.activeForSession slot.sessionId = 0 ∧
        Coordinator.EpochFollows epoch (w.coordinator.slots.get? slot) := by
  cases moves <;> simp only [List.mem_cons, List.not_mem_nil, reduceCtorEq, or_false] at registered
  rename_i alive free follows vacant
  cases registered
  exact ⟨alive, free, follows⟩

theorem Moves.linked (moves : Moves w events next) (linked : Linked w)
    (calm : ∀ h v, w.view h = some v → v.Calm) : Linked next := by
  cases moves with
  | idle => exact linked
  | fails code => exact linked
  | registers record new alive free follows vacant => exact linked.addWriter new
  | stops h record operation found running =>
      have idle : h ∉ w.stops := of_decide_eq_false ((calm h _ (view_eq found)).running running)
      refine linked.setWriterStops found ?_ (List.nodup_cons.mpr ⟨idle, linked.stopsNodup⟩) List.mem_cons.mp
      rfl
  | issues h record found pending stopping =>
      have unissued : record.capabilityRecord = none := by
        have seen := (calm h _ (view_eq found)).stopping (decide_eq_true pending)
        cases holds : record.capabilityRecord with
        | none => rfl
        | some k =>
            obtain ⟨state, capability⟩ := linked.owner found holds
            rw [linked.viewOf_capability capability found] at seen
            cases seen
      exact (linked.issue found unissued).eraseStop
  | confirms h record code found pending other =>
      refine linked.setWriterStops found ?_ (linked.stopsNodup.erase h) fun inside =>
        .inr (List.mem_of_mem_erase inside)
      rfl
  | stopFails h record code found pending =>
      refine linked.setWriterStops found ?_ (linked.stopsNodup.erase h) fun inside =>
        .inr (List.mem_of_mem_erase inside)
      rfl
  | samples k h record capability found issued =>
      have idle : k ∉ w.snapshots := by
        have seen := (calm h _ (view_eq found)).issued issued
        rw [linked.viewOf_snapshotPending capability found] at seen
        exact of_decide_eq_false seen
      have both : Linked { w with coordinator := w.coordinator.setBoth k .consuming h record .consuming } :=
        linked.setBoth capability found
      refine both.withSnapshots (List.nodup_cons.mpr ⟨idle, linked.snapshotsNodup⟩) ?_
      intro k' inside
      rcases List.mem_cons.mp inside with rfl | inside
      · exact ⟨_, JsMap.get?_set_self⟩
      · exact both.snapshots inside
  | rejects k h record code capability found => exact linked.setBoth capability found
  | consumes k h record state capability found pending unrequested =>
      exact (linked.setBoth capability found).eraseSnapshot
  | doubts k h record state code capability found pending =>
      exact (linked.setBoth capability found).eraseSnapshot
  | requests h record found consuming => exact linked.setWriter found rfl
  | revokes h record found revocable => exact linked.revoke found
  | retires h record found alive stopped current =>
      have written : Linked { w with
          coordinator := w.coordinator.setWriter h { record with state := .retired } } :=
        linked.setWriter found rfl
      exact {
        writers := written.writers, capabilities := written.capabilities, owner := written.owner
        held := written.held, stops := written.stops, snapshots := written.snapshots
        stopsNodup := linked.stopsNodup, snapshotsNodup := linked.snapshotsNodup }
  | disposes c form inactive =>
      subst form
      exact {
        writers := linked.writers, capabilities := linked.capabilities, owner := linked.owner
        held := linked.held, stops := linked.stops, snapshots := linked.snapshots
        stopsNodup := linked.stopsNodup, snapshotsNodup := linked.snapshotsNodup }

end Moves

end PortableCodex.StoppedWriter
