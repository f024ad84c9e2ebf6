import PortableCodex.StoppedWriter.Tenancy

/-!
The laws of the coordinator.

`law` says what must have happened before each event: a stop is called once, a capability follows the
confirmed stop of an unrevoked writer, a snapshot is taken once and under that capability, and a slot is
given to a new writer after all writers of its session have retired, under a later epoch. `Fits` ties the
view of a writer to its past; with the tenures it carries the laws over every run (`Run.coordinatorLaws`).
-/

namespace PortableCodex.StoppedWriter

open Js ProviderState Contracts Traces

/-- What happened before an event. -/
def law (before : List Event) : Event → Prop
  | .registered h slot epoch =>
      (∀ slot' epoch', .registered h slot' epoch' ∉ before) ∧
      ∀ h' slot' epoch', .registered h' slot' epoch' ∈ before → slot'.sessionId = slot.sessionId →
        .retired h' ∈ before ∧ (slot' = slot → epoch'.val < epoch.val)
  | .stopCalled h =>
      (∃ slot epoch, .registered h slot epoch ∈ before) ∧ .revoked h ∉ before ∧ .stopCalled h ∉ before
  | .stopConfirmed h => .stopCalled h ∈ before ∧ .stopConfirmed h ∉ before
  | .issued h k =>
      .stopConfirmed h ∈ before ∧ .revoked h ∉ before ∧ (∀ k', .issued h k' ∉ before) ∧
        ∀ h', .issued h' k ∉ before
  | .snapshotCalled h k =>
      .issued h k ∈ before ∧ .revoked h ∉ before ∧ ∀ k', .snapshotCalled h k' ∉ before
  | .consumed h k =>
      .snapshotCalled h k ∈ before ∧ .revoked h ∉ before ∧ ∀ k', .consumed h k' ∉ before
  | .retired h => .stopConfirmed h ∈ before ∧ .retired h ∉ before
  | _ => True

/-! ### The past of a writer -/

/-- The past of a writer, as far as its view shows it. -/
structure Fits (h : Handle) (trace : List Event) (v : View) : Prop where
  registered : ∀ slot epoch, .registered h slot epoch ∈ trace ↔ slot = v.slot ∧ epoch = v.epoch
  retired : v.state = .retired ↔ .retired h ∈ trace
  running : v.state = .running → .stopCalled h ∉ trace ∧ .stopConfirmed h ∉ trace ∧ v.stopPending = false ∧
    v.stopEstablished = false ∧ v.capability = none
  stopping : v.state = .stopping → v.stopPending = true
  pending : v.stopPending = true → (v.state = .stopping ∨ v.state = .revoked) ∧ v.stopEstablished = false ∧
    .stopCalled h ∈ trace ∧ .stopConfirmed h ∉ trace ∧ v.capability = none
  established : v.stopEstablished = true → .stopConfirmed h ∈ trace
  confirmed : v.capability ≠ none → .stopConfirmed h ∈ trace
  captured : v.state = .consumed → v.capability ≠ none
  issued : ∀ k, .issued h k ∈ trace ↔ v.capability.map Prod.fst = some k
  issuedState : ∀ k, v.capability = some (k, .issued) → v.state = .issued
  consuming : v.snapshotPending = true → v.state = .consuming ∧
    ∀ k state, v.capability = some (k, state) → .snapshotCalled h k ∈ trace ∧ state ≠ .issued
  called : ∀ k, .snapshotCalled h k ∈ trace → v.state ≠ .issued ∧ v.capability ≠ none
  consumed : ∀ k, .consumed h k ∈ trace → v.state = .consumed ∨ v.state = .retired
  revoked : .revoked h ∈ trace → v.state = .revoked ∨ v.state = .retired ∨ v.state = .snapshotUncertain ∨
    v.state = .consuming ∧ v.revocationRequested = true

variable {h : Handle} {trace events : List Event} {v v' : View}

theorem Fits.calm (fits : Fits h trace v) : v.Calm where
  running state := (fits.running state).2.2.1
  stopping pending := (fits.pending pending).2.2.2.2
  issued state := by
    by_contra sampling
    have consuming := (fits.consuming (Bool.eq_true_of_not_eq_false sampling)).1
    rw [state] at consuming
    cases consuming
  usable := fits.issuedState
  sampling pending := (fits.consuming pending).1

/-- The events about other writers. -/
theorem Fits.frame (fits : Fits h trace v) (others : ∀ e ∈ events, e.writer ≠ some h) :
    Fits h (trace ++ events) v := by
  have same : ∀ e : Event, e.writer = some h → (e ∈ trace ++ events ↔ e ∈ trace) := by
    intro e about
    refine List.mem_append.trans (or_iff_left fun member => others e member about)
  refine ⟨?_, ?_, ?_, fits.stopping, ?_, ?_, ?_, ?_, ?_, fits.issuedState, ?_, ?_, ?_, ?_⟩
  · exact fun slot epoch => (same _ rfl).trans (fits.registered slot epoch)
  · exact fits.retired.trans (same _ rfl).symm
  · intro state
    rw [same _ rfl, same _ rfl]
    exact fits.running state
  · intro pending
    rw [same _ rfl, same _ rfl]
    exact fits.pending pending
  · exact fun established => (same _ rfl).mpr (fits.established established)
  · exact fun some => (same _ rfl).mpr (fits.confirmed some)
  · exact fits.captured
  · exact fun k => (same _ rfl).trans (fits.issued k)
  · intro sampling
    obtain ⟨consuming, called⟩ := fits.consuming sampling
    refine ⟨consuming, fun k state seen => ?_⟩
    rw [same _ rfl]
    exact called k state seen
  · exact fun k called => fits.called k ((same _ rfl).mp called)
  · exact fun k consumed => fits.consumed k ((same _ rfl).mp consumed)
  · exact fun revoked => fits.revoked ((same _ rfl).mp revoked)

theorem Fits.stops (fits : Fits h trace v) (state : v.state = .running) :
    Fits h (trace ++ [.stopCalled h]) { v with state := .stopping, stopPending := true } := by
  obtain ⟨registered, retired, running, stopping, pending, established, confirmed, captured, issued, issuedState,
    consuming, called, consumed, revoked⟩ := fits
  constructor <;> simp only [List.mem_append, List.mem_cons, List.not_mem_nil, reduceCtorEq, or_false] <;> grind -linarith -ring

theorem Fits.issues (fits : Fits h trace v) (k : Handle) (stopped : v.stopPending = true)
    (state : v.state = .stopping) :
    Fits h (trace ++ [.stopConfirmed h, .issued h k]) { v with
      state := .issued, stopEstablished := true, capability := some (k, .issued), stopPending := false,
      snapshotPending := false } := by
  obtain ⟨registered, retired, running, stopping, pending, established, confirmed, captured, issued, issuedState,
    consuming, called, consumed, revoked⟩ := fits
  constructor <;> simp only [List.mem_append, List.mem_cons, List.not_mem_nil, reduceCtorEq, or_false] <;> grind -linarith -ring

theorem Fits.confirms (fits : Fits h trace v) (code : ErrorCode) (stopped : v.stopPending = true)
    (other : v.state ≠ .stopping) :
    Fits h (trace ++ [.stopConfirmed h, .failed code]) { v with stopEstablished := true, stopPending := false } := by
  obtain ⟨registered, retired, running, stopping, pending, established, confirmed, captured, issued, issuedState,
    consuming, called, consumed, revoked⟩ := fits
  constructor <;> simp only [List.mem_append, List.mem_cons, List.not_mem_nil, reduceCtorEq, or_false] <;> grind -linarith -ring

theorem Fits.stopFails (fits : Fits h trace v) (code : ErrorCode) (stopped : v.stopPending = true) :
    Fits h (trace ++ [.failed code]) { v with
      state := if v.state = .stopping then .stopUncertain else v.state
      stopEstablished := false, stopPending := false } := by
  obtain ⟨registered, retired, running, stopping, pending, established, confirmed, captured, issued, issuedState,
    consuming, called, consumed, revoked⟩ := fits
  constructor <;> simp only [List.mem_append, List.mem_cons, List.not_mem_nil, reduceCtorEq, or_false] <;> grind -linarith -ring

theorem Fits.samples (fits : Fits h trace v) {k : Handle} (capability : v.capability = some (k, .issued))
    (state : v.state = .issued) :
    Fits h (trace ++ [.snapshotCalled h k]) { v with
      state := .consuming, capability := some (k, .consuming), snapshotPending := true } := by
  obtain ⟨registered, retired, running, stopping, pending, established, confirmed, captured, issued, issuedState,
    consuming, called, consumed, revoked⟩ := fits
  constructor <;> simp only [List.mem_append, List.mem_cons, List.not_mem_nil, reduceCtorEq, or_false] <;> grind -linarith -ring

theorem Fits.rejects (fits : Fits h trace v) {k : Handle} (code : ErrorCode) (capability : v.capability = some (k, .issued)) :
    Fits h (trace ++ [.revoked h, .failed code]) { v with state := .revoked, capability := some (k, .revoked) } := by
  obtain ⟨registered, retired, running, stopping, pending, established, confirmed, captured, issued, issuedState,
    consuming, called, consumed, revoked⟩ := fits
  constructor <;> simp only [List.mem_append, List.mem_cons, List.not_mem_nil, reduceCtorEq, or_false] <;> grind -linarith -ring

theorem Fits.consumes (fits : Fits h trace v) {k : Handle} {state : CapabilityState} (capability : v.capability = some (k, state))
    (sampling : v.snapshotPending = true) (unrequested : v.revocationRequested = false) :
    Fits h (trace ++ [.consumed h k]) { v with
      state := .consumed, capability := some (k, .consumed), snapshotPending := false } := by
  obtain ⟨registered, retired, running, stopping, pending, established, confirmed, captured, issued, issuedState,
    consuming, called, consumed, revoked⟩ := fits
  constructor <;> simp only [List.mem_append, List.mem_cons, List.not_mem_nil, reduceCtorEq, or_false] <;> grind -linarith -ring

theorem Fits.doubts (fits : Fits h trace v) {k : Handle} {state : CapabilityState} (code : ErrorCode) 
    (capability : v.capability = some (k, state)) (sampling : v.snapshotPending = true) :
    Fits h (trace ++ [.failed code]) { v with
      state := .snapshotUncertain, capability := some (k, .consumed), snapshotPending := false } := by
  obtain ⟨registered, retired, running, stopping, pending, established, confirmed, captured, issued, issuedState,
    consuming, called, consumed, revoked⟩ := fits
  constructor <;> simp only [List.mem_append, List.mem_cons, List.not_mem_nil, reduceCtorEq, or_false] <;> grind -linarith -ring

theorem Fits.requests (fits : Fits h trace v) (state : v.state = .consuming) :
    Fits h (trace ++ [.revoked h]) { v with revocationRequested := true } := by
  obtain ⟨registered, retired, running, stopping, pending, established, confirmed, captured, issued, issuedState,
    consuming, called, consumed, revoked⟩ := fits
  constructor <;> simp only [List.mem_append, List.mem_cons, List.not_mem_nil, reduceCtorEq, or_false] <;> grind -linarith -ring

theorem Fits.retires (fits : Fits h trace v) (state : v.state = .consumed ∨ v.state = .revoked ∧ v.stopEstablished = true) :
    Fits h (trace ++ [.retired h])
      { v with state := .retired } := by
  obtain ⟨registered, retired, running, stopping, pending, established, confirmed, captured, issued, issuedState,
    consuming, called, consumed, revoked⟩ := fits
  constructor <;> simp only [List.mem_append, List.mem_cons, List.not_mem_nil, reduceCtorEq, or_false] <;> grind -linarith -ring

/-- Whatever becomes of the capability, it stays the one that was issued and can no longer be used. -/
theorem Fits.revokes (fits : Fits h trace v) (state : v.state ∈ Coordinator.revocableStates)
    {capability : Option (Handle × CapabilityState)} (kept : capability.map Prod.fst = v.capability.map Prod.fst)
    (unusable : ∀ k, capability ≠ some (k, .issued)) (empty : capability = none ↔ v.capability = none) :
    Fits h (trace ++ [.revoked h]) { v with state := .revoked, capability } := by
  obtain ⟨registered, retired, running, stopping, pending, established, confirmed, captured, issued, issuedState,
    consuming, called, consumed, revoked⟩ := fits
  simp only [Coordinator.revocableStates, List.mem_cons, List.not_mem_nil, or_false] at state
  constructor <;> simp only [List.mem_append, List.mem_cons, List.not_mem_nil, reduceCtorEq, or_false] <;> grind -linarith -ring

/-- The past of a writer after a change in its life. -/
theorem Fits.change (fits : Fits h trace v) (change : Change h v events v') : Fits h (trace ++ events) v' := by
  cases change with
  | stops state => exact fits.stops state
  | issues k stopped state => exact fits.issues k stopped state
  | confirms code stopped other => exact fits.confirms code stopped other
  | stopFails code stopped => exact fits.stopFails code stopped
  | samples k capability state => exact fits.samples capability state
  | rejects k code capability => exact fits.rejects code capability
  | consumes k state capability sampling unrequested => exact fits.consumes capability sampling unrequested
  | doubts k state code capability sampling => exact fits.doubts code capability sampling
  | requests state => exact fits.requests state
  | revokes state =>
      refine fits.revokes state ?_ ?_ Option.map_eq_none_iff
      · rw [Option.map_map]
        rfl
      · intro k seen
        obtain ⟨c, _, form⟩ := Option.map_eq_some_iff.mp seen
        have used := congrArg Prod.snd form
        dsimp only at used
        split at used
        · cases used
        · rename_i other
          exact other used
  | retires state => exact fits.retires state

/-- The events of a change keep the laws. -/
theorem Fits.lawful (fits : Fits h trace v) (lawful : Lawful law trace) (change : Change h v events v')
    (fresh : ∀ k h', .issued h k ∈ events → .issued h' k ∉ trace) : Lawful law (trace ++ events) := by
  have known : ∃ slot epoch, .registered h slot epoch ∈ trace :=
    ⟨v.slot, v.epoch, (fits.registered _ _).mpr ⟨rfl, rfl⟩⟩
  have unrevoked : ∀ {state}, v.state = state → state ≠ .revoked → state ≠ .retired →
      state ≠ .snapshotUncertain → state ≠ .consuming → .revoked h ∉ trace := by
    intro state is h₁ h₂ h₃ h₄ revoked
    rcases fits.revoked revoked with seen | seen | seen | ⟨seen, _⟩
    · exact h₁ (is.symm.trans seen)
    · exact h₂ (is.symm.trans seen)
    · exact h₃ (is.symm.trans seen)
    · exact h₄ (is.symm.trans seen)
  have failed : ∀ {trace : List Event} {code}, Lawful law trace → Lawful law (trace ++ [.failed code]) :=
    fun lawful => lawful.snoc trivial
  cases change with
  | stops state =>
      refine lawful.snoc ⟨known, ?_, (fits.running state).1⟩
      exact unrevoked state nofun nofun nofun nofun
  | issues k stopped state =>
      obtain ⟨_, _, called, unconfirmed, unissued⟩ := fits.pending stopped
      have confirmed : Lawful law (trace ++ [.stopConfirmed h]) := lawful.snoc ⟨called, unconfirmed⟩
      have once : Lawful law (trace ++ [.stopConfirmed h] ++ [.issued h k]) := by
        refine confirmed.snoc ⟨List.mem_append_right _ List.mem_cons_self, ?_, ?_, ?_⟩
        · simp only [List.mem_append, List.mem_singleton, reduceCtorEq, or_false]
          exact unrevoked state nofun nofun nofun nofun
        · intro k'
          simp only [List.mem_append, List.mem_singleton, reduceCtorEq, or_false]
          rw [fits.issued, unissued]
          exact nofun
        · intro h'
          simp only [List.mem_append, List.mem_singleton, reduceCtorEq, or_false]
          exact fresh k h' (List.mem_cons_of_mem _ List.mem_cons_self)
      rwa [List.append_assoc] at once
  | confirms code stopped other =>
      obtain ⟨_, _, called, unconfirmed, _⟩ := fits.pending stopped
      have once : Lawful law (trace ++ [.stopConfirmed h] ++ [.failed code]) :=
        failed (lawful.snoc ⟨called, unconfirmed⟩)
      rwa [List.append_assoc] at once
  | stopFails code stopped => exact failed lawful
  | samples k capability state =>
      refine lawful.snoc ⟨(fits.issued k).mpr ?_, unrevoked state nofun nofun nofun nofun, ?_⟩
      · rw [capability, Option.map_some]
      · intro k' called
        exact (fits.called k' called).1 state
  | rejects k code capability =>
      have once : Lawful law (trace ++ [.revoked h] ++ [.failed code]) := failed (lawful.snoc trivial)
      rwa [List.append_assoc] at once
  | consumes k state capability sampling unrequested =>
      obtain ⟨consuming, called⟩ := fits.consuming sampling
      refine lawful.snoc ⟨(called k state capability).1, ?_, ?_⟩
      · intro revoked
        rcases fits.revoked revoked with seen | seen | seen | ⟨_, requested⟩
        · exact absurd (consuming.symm.trans seen) nofun
        · exact absurd (consuming.symm.trans seen) nofun
        · exact absurd (consuming.symm.trans seen) nofun
        · rw [unrequested] at requested
          cases requested
      · intro k' consumed
        rcases fits.consumed k' consumed with seen | seen
        · exact absurd (consuming.symm.trans seen) nofun
        · exact absurd (consuming.symm.trans seen) nofun
  | doubts k state code capability sampling => exact failed lawful
  | requests state => exact lawful.snoc trivial
  | revokes state => exact lawful.snoc trivial
  | retires state =>
      refine lawful.snoc ⟨?_, fun retired => ?_⟩
      · rcases state with state | ⟨_, established⟩
        · exact fits.confirmed (fits.captured state)
        · exact fits.established established
      · have seen := fits.retired.mpr retired
        rcases state with state | ⟨state, _⟩
        · exact absurd (state.symm.trans seen) nofun
        · exact absurd (state.symm.trans seen) nofun

/-- The past of a writer that was just registered. -/
theorem Fits.new {record : WriterRecord} (unknown : ∀ e ∈ trace, e.writer ≠ some h) :
    Fits h (trace ++ [.registered h record.slot record.writerFence.fencingEpoch]) (View.new record) := by
  have only : ∀ e : Event, e.writer = some h →
      (e ∈ trace ++ [.registered h record.slot record.writerFence.fencingEpoch] ↔
        e = .registered h record.slot record.writerFence.fencingEpoch) := by
    intro e about
    rw [List.mem_append, List.mem_singleton]
    exact or_iff_right fun member => unknown e member about
  refine ⟨?_, ?_, ?_, nofun, nofun, nofun, fun absent => absurd rfl absent, nofun, ?_, nofun, nofun, ?_, ?_, ?_⟩
  · intro slot epoch
    rw [only _ rfl, Event.registered.injEq]
    exact and_iff_right rfl
  · rw [only _ rfl]
    exact ⟨nofun, nofun⟩
  · intro _
    rw [only _ rfl, only _ rfl]
    exact ⟨nofun, nofun, rfl, rfl, rfl⟩
  · intro k
    rw [only _ rfl]
    exact ⟨nofun, nofun⟩
  · intro k
    rw [only _ rfl]
    exact nofun
  · intro k
    rw [only _ rfl]
    exact nofun
  · rw [only _ rfl]
    exact nofun

/-! ### Runs -/

/-- What holds after every run: the laws of its events, and the state that carries them. -/
structure Invariant (trace : List Event) (w : World) : Prop where
  lawful : Lawful law trace
  linked : Linked w
  tenancy : Tenancy w.coordinator
  rising : Rising w.coordinator
  fits : ∀ h v, w.view h = some v → Fits h trace v
  known : ∀ h, ∀ e ∈ trace, e.writer = some h → ∃ v, w.view h = some v

namespace Invariant

variable {w next : World}

theorem start : Invariant [] { coordinator := .initial, stops := [], snapshots := [] } where
  lawful := lawful_nil
  linked := .initial
  tenancy := .initial
  rising := .initial
  fits _ _ found := nomatch found
  known _ _ member := nomatch member

theorem tenure_of_view {h : Handle} {v : View} (seen : w.view h = some v) :
    w.coordinator.tenure h = some ⟨v.slot, v.epoch, decide (v.state = .retired)⟩ := by
  obtain ⟨record, found, rfl⟩ := Option.map_eq_some_iff.mp seen
  exact Coordinator.tenure_eq found

/-- The next handle was never issued. -/
theorem unissued (invariant : Invariant trace w) (h : Handle) :
    .issued h w.coordinator.nextHandle ∉ trace := by
  intro issued
  obtain ⟨v, seen⟩ := invariant.known h _ issued rfl
  have named := ((invariant.fits h v seen).issued _).mp issued
  obtain ⟨record, found, rfl⟩ := Option.map_eq_some_iff.mp seen
  obtain ⟨⟨k, state⟩, capability, same⟩ := Option.map_eq_some_iff.mp named
  obtain ⟨k', _, stored⟩ := Option.bind_eq_some_iff.mp capability
  obtain ⟨cr, known, form⟩ := Option.map_eq_some_iff.mp stored
  cases form
  subst same
  exact (invariant.linked.capabilities known).ne rfl

/-- A slot is given to a new writer after all writers of its session have retired. -/
theorem registers (invariant : Invariant trace w) {slot : SlotKey} {epoch : PositiveUint64}
    (unseen : w.view w.coordinator.nextHandle = none) (alive : w.coordinator.disposed = false)
    (free : w.coordinator.activeForSession slot.sessionId = 0)
    (follows : Coordinator.EpochFollows epoch (w.coordinator.slots.get? slot)) :
    law trace (.registered w.coordinator.nextHandle slot epoch) := by
  constructor
  · intro slot epoch registered
    obtain ⟨v, seen⟩ := invariant.known _ _ registered rfl
    rw [unseen] at seen
    cases seen
  · intro h slot epoch registered session
    obtain ⟨v, seen⟩ := invariant.known _ _ registered rfl
    have fits := invariant.fits h v seen
    obtain ⟨rfl, rfl⟩ := (fits.registered slot epoch).mp registered
    have tenure := tenure_of_view seen
    have inactive : w.coordinator.activeForSession v.slot.sessionId = 0 := by
      rw [session]
      exact free
    have retired := Coordinator.retired_of_inactive invariant.tenancy inactive tenure
    refine ⟨fits.retired.mp (of_decide_eq_true retired), fun same => ?_⟩
    obtain ⟨slot, last, entry, remembered, le⟩ := invariant.rising.last alive h _ tenure retired
    change w.coordinator.slots.get? v.slot = some slot at entry
    rw [same] at entry
    exact le.trans_lt (follows slot entry last remembered)

theorem step (invariant : Invariant trace w) (moves : Moves w events next) :
    Invariant (trace ++ events) next := by
  have calm : ∀ h v, w.view h = some v → v.Calm := fun h v seen => (invariant.fits h v seen).calm
  have slots := moves.slots invariant.linked calm
  have tenancy := slots.tenancy invariant.linked invariant.tenancy
  have rising := slots.rising invariant.tenancy invariant.rising
  have linked := moves.linked invariant.linked calm
  cases moves.seen invariant.linked with
  | same views about =>
      refine ⟨?_, linked, tenancy, rising, ?_, ?_⟩
      · refine invariant.lawful.append fun before event after form => ?_
        have none := about event (form ▸ List.mem_append_right _ List.mem_cons_self)
        cases event <;> trivial
      · intro h v seen
        rw [views] at seen
        refine (invariant.fits h v seen).frame fun e member same => ?_
        rw [about e member] at same
        cases same
      · intro h e member same
        rcases List.mem_append.mp member with past | new
        · rw [views]
          exact invariant.known h e past same
        · rw [about e new] at same
          cases same
  | changes h v v' seen change views =>
      have fits := invariant.fits h v seen
      have about : ∀ e ∈ events, e.writer = some h ∨ e.writer = none := by
        intro e member
        cases change <;> simp only [List.mem_cons, List.not_mem_nil, or_false] at member <;>
          rcases member with rfl | rfl <;> simp only [Event.writer, true_or, or_true]
      refine ⟨?_, linked, tenancy, rising, ?_, ?_⟩
      · refine fits.lawful invariant.lawful change fun k h' issued => ?_
        rw [moves.issued issued]
        exact invariant.unissued h'
      · intro h' v'' seen'
        rw [views] at seen'
        split at seen'
        · rename_i here
          obtain rfl := Option.some.inj seen'
          rw [here]
          exact fits.change change
        · rename_i other
          refine (invariant.fits h' v'' seen').frame fun e member same => ?_
          rcases about e member with writer | writer
          · exact other (Option.some.inj (same.symm.trans writer))
          · rw [writer] at same
            cases same
      · intro h' e member same
        rw [views]
        split
        · exact ⟨v', rfl⟩
        · rename_i other
          rcases List.mem_append.mp member with past | new
          · exact invariant.known h' e past same
          · rcases about e new with writer | writer
            · exact absurd (Option.some.inj (same.symm.trans writer)) other
            · rw [writer] at same
              cases same
  | registers record unseen views =>
      obtain ⟨alive, free, follows⟩ := moves.registered List.mem_cons_self
      refine ⟨?_, linked, tenancy, rising, ?_, ?_⟩
      · exact invariant.lawful.snoc (invariant.registers unseen alive free follows)
      · intro h v seen
        rw [views] at seen
        split at seen
        · rename_i here
          obtain rfl := Option.some.inj seen
          subst here
          refine Fits.new fun e member same => ?_
          obtain ⟨v, known⟩ := invariant.known _ e member same
          rw [unseen] at known
          cases known
        · rename_i other
          refine (invariant.fits h v seen).frame fun e member same => ?_
          obtain rfl := List.eq_of_mem_singleton member
          exact other (Option.some.inj same).symm
      · intro h e member same
        rw [views]
        split
        · exact ⟨_, rfl⟩
        · rename_i other
          rcases List.mem_append.mp member with past | new
          · exact invariant.known h e past same
          · obtain rfl := List.eq_of_mem_singleton new
            exact absurd (Option.some.inj same).symm other

end Invariant

theorem Run.invariant {trace : List Event} {w : World} (run : Run system trace w) : Invariant trace w := by
  refine Traces.Run.invariant ?_ ?_ run
  · rintro w rfl
    exact .start
  · rintro trace w events next invariant ⟨call, form⟩
    have moves := perform_moves w call
    rw [form] at moves
    exact invariant.step moves

/-! ### The laws -/

def Event.isStopCalled (h : Handle) : Event → Bool
  | .stopCalled h' => h' = h
  | _ => false

def Event.isIssued (h : Handle) : Event → Bool
  | .issued h' _ => h' = h
  | _ => false

def Event.isSnapshotCalled (h : Handle) : Event → Bool
  | .snapshotCalled h' _ => h' = h
  | _ => false

structure CoordinatorLaws (trace : List Event) (w : World) : Prop where
  tenancy : Tenancy w.coordinator
  rising : Rising w.coordinator
  lawful : Lawful law trace
  stopOnce : ∀ h, trace.countP (Event.isStopCalled h) ≤ 1
  issueOnce : ∀ h, trace.countP (Event.isIssued h) ≤ 1
  snapshotOnce : ∀ h, trace.countP (Event.isSnapshotCalled h) ≤ 1

theorem stopCalled_once (h : Handle) (before : List Event) (event : Event) (holds : law before event)
    (is : event.isStopCalled h = true) : ∀ earlier ∈ before, earlier.isStopCalled h = false := by
  intro earlier member
  cases event <;> try cases is
  obtain rfl := of_decide_eq_true is
  cases earlier <;> try rfl
  refine decide_eq_false ?_
  rintro rfl
  exact holds.2.2 member

theorem issued_once (h : Handle) (before : List Event) (event : Event) (holds : law before event)
    (is : event.isIssued h = true) : ∀ earlier ∈ before, earlier.isIssued h = false := by
  intro earlier member
  cases event <;> try cases is
  obtain rfl := of_decide_eq_true is
  cases earlier <;> try rfl
  refine decide_eq_false ?_
  rintro rfl
  exact holds.2.2.1 _ member

theorem snapshotCalled_once (h : Handle) (before : List Event) (event : Event) (holds : law before event)
    (is : event.isSnapshotCalled h = true) : ∀ earlier ∈ before, earlier.isSnapshotCalled h = false := by
  intro earlier member
  cases event <;> try cases is
  obtain rfl := of_decide_eq_true is
  cases earlier <;> try rfl
  refine decide_eq_false ?_
  rintro rfl
  exact holds.2.2 _ member

/-- One coordinator, in any order of calls and of callbacks that settle or not. -/
theorem Run.coordinatorLaws {trace : List Event} {w : World} (run : Run system trace w) :
    CoordinatorLaws trace w := by
  have invariant := Run.invariant run
  refine ⟨invariant.tenancy, invariant.rising, invariant.lawful, ?_, ?_, ?_⟩
  · exact fun h => invariant.lawful.countP_le_one _ (stopCalled_once h)
  · exact fun h => invariant.lawful.countP_le_one _ (issued_once h)
  · exact fun h => invariant.lawful.countP_le_one _ (snapshotCalled_once h)

/-- The world after some calls, with their events. -/
def World.performAll (w : World) : List Call → List Event × World
  | [] => ([], w)
  | call :: rest =>
      let (next, events) := w.perform call
      let (more, last) := next.performAll rest
      (events ++ more, last)

theorem Run.performAll {trace : List Event} {w : World} (run : Run system trace w) (calls : List Call) :
    Run system (trace ++ (w.performAll calls).1) (w.performAll calls).2 := by
  induction calls generalizing trace w with
  | nil =>
      rw [World.performAll, List.append_nil]
      exact run
  | cons call rest ih =>
      have taken : Run system (trace ++ (w.perform call).2) (w.perform call).1 := .step run ⟨call, rfl⟩
      have after := ih taken
      rw [List.append_assoc] at after
      exact after

/-! ### A session -/

def sampleText (text : String) : JsValue := .string (js text)

def sampleAttachment : Argument := .data (record sessionAttachmentKeys [
  sampleText "attachment", sampleText "backend", .number (ofNat 1), sampleText "1", sampleText "holder",
  sampleText "directory", sampleText "lease", sampleText "read-write", sampleText "operation", sampleText "proof",
  sampleText "/srv/session", sampleText "00000000-0000-4000-8000-000000000000", sampleText "storage"])

def sampleLease : Argument := .data (record leaseGrantKeys [
  .number (ofNat 1), sampleText "2030-01-01T00:00:00.000Z", sampleText "1", sampleText "holder",
  sampleText "lease", sampleText "00000000-0000-4000-8000-000000000000"])

def sampleId : Argument := .data (sampleText "one")

def sampleCallback : Argument := .function ⟨false, false⟩

/-- A writer is registered and stopped, its snapshot is taken, and it retires. -/
def sampleCalls : List Call :=
  [.registerWriter (some ⟨sampleAttachment, sampleLease, sampleId, sampleCallback, sampleId⟩),
    .stopAndIssueCapability (some ⟨sampleId, sampleId, .handle 0, sampleId⟩),
    .stopSettles 0 (.yielded .stopConfirmed),
    .consumeCapability (some ⟨sampleAttachment, sampleLease, .handle 1, sampleId, sampleCallback, sampleId,
      .handle 0, sampleId⟩),
    .snapshotSettles 1 (.yielded (.plain .null)),
    .retireWriter (some ⟨sampleId, .handle 0, sampleId⟩)]

def sampleStart : World := { coordinator := .initial, stops := [], snapshots := [] }

theorem coordinatorLaws_session :
    (sampleStart.performAll sampleCalls).1.drop 1 =
      [.stopCalled 0, .stopConfirmed 0, .issued 0 1, .snapshotCalled 0 1, .consumed 0 1, .retired 0] ∧
    CoordinatorLaws (sampleStart.performAll sampleCalls).1 (sampleStart.performAll sampleCalls).2 :=
  ⟨by decide +kernel, Run.coordinatorLaws (Run.performAll (.start rfl) sampleCalls)⟩

end PortableCodex.StoppedWriter
