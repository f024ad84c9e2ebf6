import PortableCodex.OperationGuard.Guard

/-!
What the operation guard promises, in every run of any number of calls.

`Local` says of each phase what a call has come to, by itself. `Guarded` connects it to the server:
from the answer of its lock statement on, a call's backend has the lock or is dead. A call only ever
touches the locks of its own backend (`Statement.execute_others`), so the others keep theirs.
-/

namespace PortableCodex.OperationGuard

/-! ### Calls by themselves -/

/-- A call before its callback. -/
structure Unstarted (call : Call) : Prop where
  started : call.started = 0
  probes : call.probes = []
  callback : call.callback = none
  closed : call.callbackOpen = false
  busy : call.busy = false
  healthFailed : call.healthFailed = false
  cleanupFailed : call.cleanupFailed = false
  earlyFailed : call.earlyFailed = false
  outcome : call.outcome = none

/-- The callback is started once, and behind a look at the lock. -/
structure Once (call : Call) : Prop where
  atMost : call.started ≤ 1
  confirmed : call.started ≠ 0 → call.confirmed = true

/-- A call from the start of its callback to the last look at its lock. -/
structure Started (call : Call) : Prop where
  started : call.started = 1
  confirmed : call.confirmed = true
  busy : call.busy = false
  cleanupFailed : call.cleanupFailed = false
  outcome : call.outcome = none

theorem Started.notBusy {call : Call} (h : Started call) : ¬ call.busy = true := by
  rw [h.busy]
  exact Bool.false_ne_true

theorem Started.once {call : Call} (h : Started call) : Once call :=
  ⟨Nat.le_of_eq h.started, fun _ => h.confirmed⟩

theorem Unstarted.once {call : Call} (h : Unstarted call) : Once call :=
  ⟨Nat.le_trans (Nat.le_of_eq h.started) (Nat.zero_le 1), fun begun => absurd h.started begun⟩

/-- No probe is left that was issued while the callback was open. -/
def NoEarly (call : Call) : Prop := ∀ probe ∈ call.probes, probe.early = false

/-- What was found out of a callback that ran under its lock. -/
structure Verified (call : Call) : Prop where
  started : call.started = 1
  confirmed : call.confirmed = true
  heldThroughout : call.heldThroughout = true
  earlyFailed : call.earlyFailed = false
  noEarly : NoEarly call

/-- A call that cleans up or has done so. -/
structure Closed (call : Call) : Prop where
  once : Once call
  closed : call.callbackOpen = false
  noEarly : NoEarly call
  verified : call.callback ≠ none → call.healthFailed = false → Verified call
  busyDenied : call.busy = true → call.denied = true ∧ call.started = 0

/-- What a call that has reported an outcome of its callback did before. -/
structure Reported (call : Call) (outcome : Outcome) : Prop where
  own : (∀ value, outcome ≠ .result value) ∧ (∀ error, outcome ≠ .error error) ∨
    Verified call ∧ call.unlocked = true ∧ call.wasReset = true
  busy : outcome = .busy → call.denied = true ∧ call.started = 0

/-- What each phase has come to. -/
def StageAt (call : Call) : Phase → Prop
  | .resetting => Unstarted call
  | .locking => Unstarted call ∧ (call.wire = .answered false → call.denied = true)
  | .confirming => Unstarted call ∧ (call.wire = .answered true → call.confirmed = true)
  | .running => Started call ∧ call.healthFailed = false ∧ call.callback = none
  | .draining => Started call ∧ call.healthFailed = false ∧ call.callbackOpen = false
  | .verifying =>
      Started call ∧ call.callbackOpen = false ∧ NoEarly call ∧
        (call.healthFailed = false → call.earlyFailed = false)
  | .unlocking => Closed call ∧ call.busy = false ∧ call.cleanupFailed = false ∧ call.outcome = none
  | .cleaning =>
      Closed call ∧ (call.busy = false → call.cleanupFailed = false → call.unlocked = true) ∧
        call.outcome = none
  | .finished => Once call ∧ call.callbackOpen = false ∧ NoEarly call ∧
      ∃ outcome, call.outcome = some outcome ∧ Reported call outcome

/-- What a call has come to. -/
def Stage (call : Call) : Prop := StageAt call call.phase

/-- The invariant of a call by itself. -/
structure Local (call : Call) : Prop where
  probeFailed : call.earlyFailed = true → call.probeFailed = true
  stage : Stage call

theorem local_begun (lock : Lock) (backend : BackendId) : Local (.begun lock backend) :=
  ⟨fun h => h, ⟨rfl, rfl, rfl, rfl, rfl, rfl, rfl, rfl, rfl⟩⟩

/-- A call that fails before its callback ends cleans up. -/
theorem Unstarted.closed_of {call : Call} (h : Unstarted call) : Closed call where
  once := h.once
  closed := h.closed
  noEarly probe inside := by
    rw [h.probes] at inside
    cases inside
  verified callback := absurd h.callback callback
  busyDenied busy := by
    rw [h.busy] at busy
    cases busy

section Deliver

variable {call next : Call}

theorem Local.failUnstarted (h : Local call) (unstarted : Unstarted call) : Local call.failHealth.clean := by
  have notBusy : call.failHealth.busy = false := unstarted.busy
  have closed := unstarted.closed_of
  refine ⟨?_, ?_⟩
  · rw [Call.clean, notBusy]
    exact h.probeFailed
  · rw [Call.clean, notBusy]
    refine ⟨⟨{ closed.once with }, closed.closed, closed.noEarly, ?_, closed.busyDenied⟩, unstarted.busy,
      unstarted.cleanupFailed, unstarted.outcome⟩
    intro callback
    exact absurd unstarted.callback callback

/-- What is reported has been checked. -/
theorem Closed.reported (h : Closed call)
    (unlocked : call.busy = false → call.cleanupFailed = false → call.unlocked = true)
    (wasReset : call.cleanupFailed = false → call.wasReset = true) : Reported call call.report := by
  constructor
  · unfold Call.report
    split
    · exact .inl ⟨fun _ same => (by cases same), fun _ same => by cases same⟩
    · rename_i clean
      rw [Bool.or_eq_true, not_or, Bool.not_eq_true, Bool.not_eq_true] at clean
      obtain ⟨cleanupFailed, healthFailed⟩ := clean
      split
      · exact .inl ⟨fun _ same => (by cases same), fun _ same => by cases same⟩
      · rename_i notBusy
        rw [Bool.not_eq_true] at notBusy
        by_cases callback : call.callback = none
        · rw [callback]
          exact .inl ⟨fun _ same => (by cases same), fun _ same => by cases same⟩
        · exact .inr ⟨h.verified callback healthFailed, unlocked notBusy cleanupFailed, wasReset cleanupFailed⟩
  · intro same
    apply h.busyDenied
    unfold Call.report at same
    split at same
    · cases same
    · split at same
      · rename_i busy
        exact busy
      · split at same
        · cases same
        · split at same <;> cases same
        · cases same
        · cases same

theorem Reported.withOutcome {outcome : Outcome} {reported : Option Outcome} (h : Reported call outcome) :
    Reported { call with outcome := reported } outcome where
  own := by
    refine h.own.imp_right ?_
    rintro ⟨⟨started, confirmed, heldThroughout, earlyFailed, noEarly⟩, rest⟩
    exact ⟨⟨started, confirmed, heldThroughout, earlyFailed, noEarly⟩, rest⟩
  busy := h.busy

theorem Local.deliver (h : Local call) {releaseFails : Bool}
    (held : call.phase = .verifying → call.wire = .answered true → call.heldThroughout = true)
    (step : call.deliver releaseFails = some next) : Local next := by
  have stage := h.stage
  unfold Call.deliver at step
  dsimp only at step
  split at step
  · cases step
  · split at step
    · -- the first reset
      rename_i phase
      simp only [Stage, StageAt, phase] at stage
      split at step
      · obtain rfl := Option.some.inj step
        refine ⟨h.probeFailed, ?_⟩
        show Unstarted _ ∧ (Wire.sent = Wire.answered false → _)
        exact ⟨{ stage with }, fun same => by cases same⟩
      · obtain rfl := Option.some.inj step
        have closed := stage.closed_of
        refine ⟨h.probeFailed, ?_⟩
        exact ⟨{ closed.once with }, closed.closed, closed.noEarly, .uncertain, rfl,
          .inl ⟨fun _ same => (by cases same), fun _ same => by cases same⟩, fun same => by cases same⟩
    · -- the lock
      rename_i phase
      simp only [Stage, StageAt, phase] at stage
      obtain ⟨unstarted, denied⟩ := stage
      split at step
      · obtain rfl := Option.some.inj step
        refine ⟨h.probeFailed, { unstarted with }, ?_⟩
        intro never
        cases never
      · rename_i answered
        obtain rfl := Option.some.inj step
        have closed := unstarted.closed_of
        refine ⟨h.probeFailed, ?_⟩
        exact ⟨⟨{ closed.once with }, closed.closed, closed.noEarly, fun callback => absurd unstarted.callback callback,
          fun _ => ⟨denied answered, unstarted.started⟩⟩, (fun busy => by cases busy), unstarted.outcome⟩
      · obtain rfl := Option.some.inj step
        exact h.failUnstarted unstarted
    · -- the first look at the lock
      rename_i phase
      simp only [Stage, StageAt, phase] at stage
      obtain ⟨unstarted, confirmed⟩ := stage
      split at step
      · rename_i ok
        obtain rfl := Option.some.inj step
        refine ⟨h.probeFailed, ?_⟩
        exact ⟨⟨congrArg (· + 1) unstarted.started, confirmed (of_decide_eq_true ok), unstarted.busy,
          unstarted.cleanupFailed, unstarted.outcome⟩, unstarted.healthFailed, unstarted.callback⟩
      · obtain rfl := Option.some.inj step
        exact h.failUnstarted unstarted
    · -- the last look at the lock
      rename_i phase
      simp only [Stage, StageAt, phase] at stage
      obtain ⟨started, closed, noEarly, earlyFailed⟩ := stage
      split at step
      · rename_i ok
        obtain rfl := Option.some.inj step
        have answered := held phase (of_decide_eq_true ok)
        rw [Call.clean, if_neg (by rw [started.busy]; exact Bool.false_ne_true)]
        refine ⟨h.probeFailed, ?_⟩
        exact ⟨⟨{ started.once with }, closed, noEarly,
          fun _ healthy => ⟨started.started, started.confirmed, answered, earlyFailed healthy, noEarly⟩,
          fun busy => absurd busy started.notBusy⟩, started.busy, started.cleanupFailed, started.outcome⟩
      · obtain rfl := Option.some.inj step
        have notBusy : call.failHealth.busy = false := started.busy
        rw [Call.clean, if_neg (by rw [notBusy]; exact Bool.false_ne_true)]
        refine ⟨h.probeFailed, ?_⟩
        exact ⟨⟨{ started.once with }, closed, noEarly, (fun _ healthy => by cases healthy),
          fun busy => absurd busy started.notBusy⟩, started.busy, started.cleanupFailed, started.outcome⟩
    · -- the unlock
      rename_i phase
      simp only [Stage, StageAt, phase] at stage
      obtain ⟨closed, busy, cleanupFailed, outcome⟩ := stage
      obtain rfl := Option.some.inj step
      refine ⟨h.probeFailed, ?_⟩
      refine ⟨⟨{ closed.once with }, closed.closed, closed.noEarly, ?_, closed.busyDenied⟩, ?_, outcome⟩
      · intro callback healthy
        obtain ⟨started, confirmed, heldThroughout, earlyFailed, noEarly⟩ := closed.verified callback healthy
        exact ⟨started, confirmed, heldThroughout, earlyFailed, noEarly⟩
      · intro _ clean
        have unlocked := (Bool.or_eq_false_iff.mp clean).2
        rwa [Bool.not_eq_false'] at unlocked
    · -- the last reset
      rename_i phase
      simp only [Stage, StageAt, phase] at stage
      obtain ⟨closed, unlocked, outcome⟩ := stage
      obtain rfl := Option.some.inj step
      refine ⟨h.probeFailed, ?_⟩
      refine ⟨{ closed.once with }, closed.closed, closed.noEarly, _, rfl, ?_⟩
      have reported := @Closed.reported { call with
          wasReset := decide (call.wire = .answered true)
          cleanupFailed := call.cleanupFailed || !decide (call.wire = .answered true) || releaseFails
          phase := .finished } ?_ ?_ ?_
      · exact reported.withOutcome
      · refine ⟨{ closed.once with }, closed.closed, closed.noEarly, ?_, closed.busyDenied⟩
        intro callback healthy
        obtain ⟨started, confirmed, heldThroughout, earlyFailed, noEarly⟩ := closed.verified callback healthy
        exact ⟨started, confirmed, heldThroughout, earlyFailed, noEarly⟩
      · intro notBusy clean
        obtain ⟨cleanup, -⟩ := Bool.or_eq_false_iff.mp clean
        exact unlocked notBusy (Bool.or_eq_false_iff.mp cleanup).1
      · intro clean
        obtain ⟨cleanup, -⟩ := Bool.or_eq_false_iff.mp clean
        have wasReset := (Bool.or_eq_false_iff.mp cleanup).2
        rwa [Bool.not_eq_false'] at wasReset
    all_goals cases step

end Deliver

section Callback

variable {call next : Call}

theorem Verified.withProbes {probes : List Probe} {probeFailed earlyFailed : Bool} {completion : Completion}
    (h : Verified call)
    (late : NoEarly call → (∀ probe ∈ probes, probe.early = false) ∧ earlyFailed = call.earlyFailed) :
    Verified { call with probes, probeFailed, earlyFailed, completion } where
  started := h.started
  confirmed := h.confirmed
  heldThroughout := h.heldThroughout
  earlyFailed := (late h.noEarly).2.trans h.earlyFailed
  noEarly := (late h.noEarly).1

/-- What a callback does to its probes and its completion, also behind its end, where it can no longer
issue a probe that counts. -/
theorem Local.withProbes (h : Local call) (begun : ¬ Unstarted call) {probes : List Probe}
    {probeFailed earlyFailed : Bool} {completion : Completion}
    (late : NoEarly call → (∀ probe ∈ probes, probe.early = false) ∧ earlyFailed = call.earlyFailed)
    (failed : earlyFailed = true → probeFailed = true) :
    Local { call with probes, probeFailed, earlyFailed, completion } := by
  have closedWith (closed : Closed call) : Closed { call with probes, probeFailed, earlyFailed, completion } :=
    ⟨{ closed.once with }, closed.closed, (late closed.noEarly).1,
      fun callback healthy => (closed.verified callback healthy).withProbes late, closed.busyDenied⟩
  have moved : ∀ phase, StageAt call phase →
      StageAt { call with probes, probeFailed, earlyFailed, completion } phase := by
    intro phase stage
    cases phase with
    | resetting => exact absurd stage begun
    | locking => exact absurd stage.1 begun
    | confirming => exact absurd stage.1 begun
    | running => exact ⟨{ stage.1 with }, stage.2⟩
    | draining => exact ⟨{ stage.1 with }, stage.2⟩
    | verifying =>
      obtain ⟨started, closed, noEarly, healthy⟩ := stage
      refine ⟨{ started with }, closed, (late noEarly).1, fun health => ?_⟩
      exact (late noEarly).2.trans (healthy health)
    | unlocking => exact ⟨closedWith stage.1, stage.2⟩
    | cleaning => exact ⟨closedWith stage.1, stage.2⟩
    | finished =>
      obtain ⟨once, closed, noEarly, outcome, same, reported⟩ := stage
      refine ⟨{ once with }, closed, (late noEarly).1, outcome, same, ?_, reported.busy⟩
      exact reported.own.imp_right fun ⟨verified, rest⟩ => ⟨verified.withProbes late, rest⟩
  exact ⟨failed, moved call.phase h.stage⟩

/-- The callback is open only while it runs. -/
theorem Local.running_of_open (h : Local call) (isOpen : call.callbackOpen = true) : call.phase = .running := by
  have stage := h.stage
  have shut : ¬ call.callbackOpen = false := by
    rw [isOpen]
    exact Bool.false_ne_true.symm
  cases phase : call.phase <;> simp only [Stage, StageAt, phase] at stage
  case running => rfl
  case resetting => exact absurd stage.closed shut
  case locking => exact absurd stage.1.closed shut
  case confirming => exact absurd stage.1.closed shut
  case draining => exact absurd stage.2.2 shut
  case verifying => exact absurd stage.2.1 shut
  case unlocking => exact absurd stage.1.closed shut
  case cleaning => exact absurd stage.1.closed shut
  case finished => exact absurd stage.2.1 shut

/-- While the callback runs, nothing is asked of its probes. -/
theorem Local.ofRunning (h : Local call) (phase : call.phase = .running) {probes : List Probe} :
    Local { call with probes } := by
  have stage : StageAt call .running := phase ▸ h.stage
  have moved : StageAt { call with probes } .running := ⟨{ stage.1 with }, stage.2⟩
  refine ⟨h.probeFailed, ?_⟩
  show StageAt { call with probes } call.phase
  exact Eq.mpr (congrArg _ phase) moved

theorem Local.probe (h : Local call) (step : call.probe = some next) : Local next := by
  unfold Call.probe at step
  split at step
  · cases step
  · rename_i begun
    split at step
    · rename_i isOpen
      obtain rfl := Option.some.inj step
      exact h.ofRunning (h.running_of_open isOpen)
    · obtain rfl := Option.some.inj step
      refine h.withProbes (fun unstarted => begun unstarted.started) (fun noEarly => ⟨?_, rfl⟩) h.probeFailed
      intro probe inside
      rcases List.mem_append.mp inside with earlier | last
      · exact noEarly probe earlier
      · obtain rfl := List.mem_singleton.mp last
        rfl

/-- A call with a probe has begun its callback. -/
theorem not_unstarted_of_probe {index : Nat} {probe : Probe} (found : call.probes[index]? = some probe) :
    ¬ Unstarted call := by
  intro unstarted
  rw [unstarted.probes] at found
  cases found

theorem Local.answerProbe (h : Local call) {index : Nat} {wire : Wire}
    (step : call.answerProbe index wire = some next) : Local next := by
  unfold Call.answerProbe at step
  split at step
  · cases step
  · rename_i probe found
    split at step
    · obtain rfl := Option.some.inj step
      refine h.withProbes (not_unstarted_of_probe found) (fun noEarly => ⟨?_, rfl⟩) h.probeFailed
      intro other inside
      rcases List.mem_or_eq_of_mem_set inside with earlier | rfl
      · exact noEarly other earlier
      · exact noEarly probe (List.mem_of_getElem? found)
    · cases step

theorem Local.drain (h : Local call) {index : Nat} (step : call.drain index = some next) : Local next := by
  unfold Call.drain at step
  split at step
  · cases step
  · rename_i probe found
    split at step
    · cases step
    · obtain rfl := Option.some.inj step
      refine h.withProbes (not_unstarted_of_probe found) (fun noEarly => ⟨?_, ?_⟩) ?_
      · intro other inside
        exact noEarly other (List.mem_of_mem_eraseIdx inside)
      · rw [noEarly probe (List.mem_of_getElem? found), Bool.and_false, Bool.or_false]
      · intro failed
        rcases Bool.or_eq_true_iff.mp failed with earlier | now
        · rw [h.probeFailed earlier, Bool.true_or]
        · rw [(Bool.and_eq_true_iff.mp now).1, Bool.or_true]

theorem Local.complete (h : Local call) {completeArgs : List Value}
    (step : call.complete completeArgs = some next) : Local next := by
  unfold Call.complete at step
  split at step
  · cases step
  · rename_i begun
    obtain rfl := Option.some.inj step
    exact h.withProbes (fun unstarted => begun unstarted.started) (fun noEarly => ⟨noEarly, rfl⟩) h.probeFailed

theorem Local.settle (h : Local call) {returnedPromise : Bool} {settlement : Settlement}
    (step : call.settle returnedPromise settlement = some next) : Local next := by
  unfold Call.settle at step
  split at step
  · rename_i phase
    obtain rfl := Option.some.inj step
    have stage : StageAt call .running := phase ▸ h.stage
    exact ⟨h.probeFailed, { stage.1 with }, stage.2.1, rfl⟩
  · cases step

theorem Local.drained (h : Local call) (step : call.drained = some next) : Local next := by
  unfold Call.drained at step
  split at step
  · rename_i ready
    obtain ⟨phase, none⟩ := ready
    obtain rfl := Option.some.inj step
    have stage : StageAt call .draining := phase ▸ h.stage
    refine ⟨h.probeFailed, { stage.1 with }, stage.2.2, ?_, ?_⟩
    · intro probe inside
      rw [show _ = ([] : List Probe) from none] at inside
      cases inside
    · intro healthy
      have probeFailed := (Bool.or_eq_false_iff.mp healthy).2
      rw [← Bool.not_eq_true]
      intro earlyFailed
      exact absurd ((h.probeFailed earlyFailed).symm.trans probeFailed) Bool.false_ne_true.symm
  · cases step

theorem Local.observe (h : Local call) (server : Server) : Local (call.observe server) := by
  unfold Call.observe
  split
  · rename_i watched
    have stage := h.stage
    refine ⟨h.probeFailed, ?_⟩
    have moved : ∀ phase, phase = .running ∨ phase = .draining ∨ phase = .verifying → StageAt call phase →
        StageAt { call with
          heldThroughout := call.heldThroughout && decide (server.Holds call.backend call.lock) } phase := by
      rintro _ (rfl | rfl | rfl) stage
      · exact ⟨{ stage.1 with }, stage.2⟩
      · exact ⟨{ stage.1 with }, stage.2⟩
      · exact ⟨{ stage.1 with }, stage.2⟩
    refine moved call.phase ?_ h.stage
    simp only [Call.isWatched, Bool.or_eq_true, Bool.and_eq_true, decide_eq_true_eq] at watched
    rcases watched with (running | draining) | verifying
    · exact .inl running
    · exact .inr (.inl draining)
    · exact .inr (.inr verifying.1)
  · exact h

/-- The answer to a statement. -/
theorem Local.withWire (h : Local call) {wire : Wire} {denied confirmed : Bool}
    (keepsDenied : call.denied = true → denied = true)
    (keepsConfirmed : call.confirmed = true → confirmed = true)
    (locking : call.phase = .locking → wire = .answered false → denied = true)
    (confirming : call.phase = .confirming → wire = .answered true → confirmed = true) :
    Local { call with wire, denied, confirmed } := by
  have once (h : Once call) : Once { call with wire, denied, confirmed } :=
    ⟨h.atMost, fun begun => keepsConfirmed (h.confirmed begun)⟩
  have started (h : Started call) : Started { call with wire, denied, confirmed } :=
    ⟨h.started, keepsConfirmed h.confirmed, h.busy, h.cleanupFailed, h.outcome⟩
  have verified (h : Verified call) : Verified { call with wire, denied, confirmed } :=
    ⟨h.started, keepsConfirmed h.confirmed, h.heldThroughout, h.earlyFailed, h.noEarly⟩
  have closed (h : Closed call) : Closed { call with wire, denied, confirmed } :=
    ⟨once h.once, h.closed, h.noEarly, fun callback healthy => verified (h.verified callback healthy),
      fun busy => ⟨keepsDenied (h.busyDenied busy).1, (h.busyDenied busy).2⟩⟩
  have moved : ∀ phase, call.phase = phase → StageAt call phase →
      StageAt { call with wire, denied, confirmed } phase := by
    intro phase same stage
    cases phase with
    | resetting => exact { stage with }
    | locking => exact ⟨{ stage.1 with }, locking same⟩
    | confirming => exact ⟨{ stage.1 with }, confirming same⟩
    | running => exact ⟨started stage.1, stage.2⟩
    | draining => exact ⟨started stage.1, stage.2⟩
    | verifying => exact ⟨started stage.1, stage.2⟩
    | unlocking => exact ⟨closed stage.1, stage.2⟩
    | cleaning => exact ⟨closed stage.1, stage.2⟩
    | finished =>
      obtain ⟨atMostOnce, shut, noEarly, outcome, reports, reported⟩ := stage
      refine ⟨once atMostOnce, shut, noEarly, outcome, reports, ?_, fun busy => ?_⟩
      · exact reported.own.imp_right fun ⟨h, rest⟩ => ⟨verified h, rest⟩
      · exact ⟨keepsDenied (reported.busy busy).1, (reported.busy busy).2⟩
  exact ⟨h.probeFailed, moved call.phase rfl h.stage⟩

end Callback

/-! ### Calls on the server -/

namespace Server

/-- No two backends have locks that conflict. -/
def Exclusive (server : Server) : Prop :=
  ∀ entry ∈ server.locks, ∀ other ∈ server.locks, entry.1 ≠ other.1 → entry.2.key = other.2.key →
    ¬ entry.2.mode.Conflicts other.2.mode

theorem Exclusive.of_subset {server next : Server} (h : server.Exclusive)
    (kept : ∀ entry ∈ next.locks, entry ∈ server.locks) : next.Exclusive :=
  fun entry inside other otherInside => h entry (kept entry inside) other (kept other otherInside)

end Server

theorem LockMode.Conflicts.symm {a b : LockMode} (h : a.Conflicts b) : b.Conflicts a := Or.symm h

section Execute

variable {statement : Statement} {server : Server} {backend : BackendId} {lock : Lock}

theorem Statement.execute_dead : (statement.execute server backend lock).1.dead = server.dead := by
  cases statement with
  | reset => rfl
  | tryLock =>
    simp only [Statement.execute]
    split <;> rfl
  | assertHeld => rfl
  | unlock =>
    simp only [Statement.execute]
    split <;> rfl

/-- A statement leaves the locks of the other backends alone. -/
theorem Statement.execute_others {other : BackendId} {otherLock : Lock} (apart : other ≠ backend)
    (inside : (other, otherLock) ∈ server.locks) :
    (other, otherLock) ∈ (statement.execute server backend lock).1.locks := by
  cases statement with
  | reset => exact List.mem_filter.mpr ⟨inside, decide_eq_true apart⟩
  | tryLock =>
    simp only [Statement.execute]
    split
    · exact inside
    · exact List.mem_cons_of_mem _ inside
  | assertHeld => exact inside
  | unlock =>
    simp only [Statement.execute]
    split
    · refine (List.mem_erase_of_ne ?_).mpr inside
      intro same
      exact apart (congrArg Prod.fst same)
    · exact inside

theorem Statement.execute_exclusive (h : server.Exclusive) :
    (statement.execute server backend lock).1.Exclusive := by
  cases statement with
  | reset => exact h.of_subset fun entry inside => (List.mem_filter.mp inside).1
  | tryLock =>
    simp only [Statement.execute]
    split
    · exact h
    · rename_i free
      intro entry inside other otherInside apart sameKey conflict
      rcases List.mem_cons.mp inside with rfl | inside
      · rcases List.mem_cons.mp otherInside with rfl | otherInside
        · exact apart rfl
        · exact free ⟨other, otherInside, apart.symm, sameKey.symm, conflict.symm⟩
      · rcases List.mem_cons.mp otherInside with rfl | otherInside
        · exact free ⟨entry, inside, apart, sameKey, conflict⟩
        · exact h entry inside other otherInside apart sameKey conflict
  | assertHeld => exact h
  | unlock =>
    simp only [Statement.execute]
    split
    · exact h.of_subset fun entry inside => List.mem_of_mem_erase inside
    · exact h

end Execute

/-- From the answer of its lock statement to its last look at the lock. -/
def Call.acquired (call : Call) : Bool :=
  match call.phase with
  | .locking => call.wire = .answered true
  | .confirming | .running | .draining | .verifying => true
  | _ => false

/-- What a call knows of the server. -/
structure Guarded (server : Server) (call : Call) : Prop where
  holds : call.acquired = true → call.backend ∉ server.dead → (call.backend, call.lock) ∈ server.locks
  lost : call.isWatched = true → call.heldThroughout = false → call.backend ∈ server.dead
  verified : call.phase = .verifying → call.wire = .answered true → call.heldThroughout = true

section Guarded

variable {server : Server} {call next : Call}

theorem Call.isWatched_iff : call.isWatched = true ↔
    call.phase = .running ∨ call.phase = .draining ∨ call.phase = .verifying ∧ call.wire = .sent := by
  simp only [Call.isWatched, Bool.or_eq_true, Bool.and_eq_true, decide_eq_true_eq, or_assoc]

theorem Call.acquired_of_isWatched (watched : call.isWatched = true) : call.acquired = true := by
  unfold Call.acquired
  rcases Call.isWatched_iff.mp watched with phase | phase | ⟨phase, -⟩ <;> rw [phase]

/-- A call that does not touch its lock or does not need it any longer. -/
theorem Guarded.keep (h : Guarded server call) (backend : next.backend = call.backend) (lock : next.lock = call.lock)
    (acquired : next.acquired = true → call.acquired = true)
    (watched : next.isWatched = true → next.heldThroughout = false →
      call.isWatched = true ∧ call.heldThroughout = false)
    (verified : next.phase = .verifying → next.wire = .answered true → next.heldThroughout = true) :
    Guarded server next where
  holds now alive := by
    rw [backend] at alive
    rw [backend, lock]
    exact h.holds (acquired now) alive
  lost now failed := by
    obtain ⟨before, same⟩ := watched now failed
    rw [backend]
    exact h.lost before same
  verified := verified

/-- A call whose probes and completion change. -/
theorem Guarded.keepPhase (h : Guarded server call) (backend : next.backend = call.backend)
    (lock : next.lock = call.lock) (phase : next.phase = call.phase) (wire : next.wire = call.wire)
    (held : next.heldThroughout = call.heldThroughout) : Guarded server next := by
  refine h.keep backend lock ?_ ?_ ?_
  · unfold Call.acquired
    rw [phase, wire]
    exact id
  · rw [held, Call.isWatched_iff, Call.isWatched_iff, phase, wire]
    exact And.intro
  · rw [phase, wire, held]
    exact h.verified

/-- A call that is behind its last look at the lock. -/
theorem Guarded.keepClosed (h : Guarded server call) (backend : next.backend = call.backend)
    (lock : next.lock = call.lock)
    (closed : next.phase = .unlocking ∨ next.phase = .cleaning ∨ next.phase = .finished) :
    Guarded server next := by
  refine h.keep backend lock ?_ ?_ ?_
  · unfold Call.acquired
    rcases closed with phase | phase | phase <;> rw [phase] <;> intro never <;> cases never
  · rw [Call.isWatched_iff]
    rcases closed with phase | phase | phase <;> rw [phase] <;>
      rintro (never | never | ⟨never, -⟩) <;> cases never
  · rcases closed with phase | phase | phase <;> rw [phase] <;> intro never <;> cases never

theorem Call.clean_phase : call.clean.phase = .unlocking ∨ call.clean.phase = .cleaning ∨ call.clean.phase = .finished := by
  unfold Call.clean
  split
  · exact .inr (.inl rfl)
  · exact .inl rfl

theorem Call.clean_backend : call.clean.backend = call.backend := by
  unfold Call.clean
  split <;> rfl

theorem Call.clean_lock : call.clean.lock = call.lock := by
  unfold Call.clean
  split <;> rfl

theorem Guarded.clean (h : Guarded server call) {closing : Call} (backend : closing.backend = call.backend)
    (lock : closing.lock = call.lock) : Guarded server closing.clean :=
  h.keepClosed (Call.clean_backend.trans backend) (Call.clean_lock.trans lock) Call.clean_phase

/-- A step of a call by itself: it stays on its backend, and one that has finished does not go on. -/
structure Own (server : Server) (call next : Call) : Prop where
  guarded : Guarded server next
  backend : next.backend = call.backend
  finished : call.phase = .finished → next.phase = .finished

theorem Guarded.own (guarded : Guarded server next) (backend : next.backend = call.backend)
    (unfinished : call.phase ≠ .finished) : Own server call next :=
  ⟨guarded, backend, fun finished => absurd finished unfinished⟩

theorem Guarded.ownPhase (h : Guarded server call) (backend : next.backend = call.backend)
    (lock : next.lock = call.lock) (phase : next.phase = call.phase) (wire : next.wire = call.wire)
    (held : next.heldThroughout = call.heldThroughout) : Own server call next :=
  ⟨h.keepPhase backend lock phase wire held, backend, phase.trans⟩

/-- A call in another phase is not finished. -/
theorem unfinished_of_phase {phase : Phase} (same : call.phase = phase) (other : phase ≠ .finished) :
    call.phase ≠ .finished := by
  rw [same]
  exact other

theorem Guarded.deliver (h : Guarded server call) {releaseFails : Bool}
    (step : call.deliver releaseFails = some next) : Own server call next := by
  unfold Call.deliver at step
  dsimp only at step
  split at step
  · cases step
  · split at step
    · rename_i phase
      have unfinished := unfinished_of_phase phase (fun never => by cases never)
      split at step
      · obtain rfl := Option.some.inj step
        refine Guarded.own (h.keep rfl rfl ?_ ?_ ?_) rfl unfinished
        · intro never
          cases never
        · intro never
          cases never
        · intro never
          cases never
      · obtain rfl := Option.some.inj step
        exact Guarded.own (h.keepClosed rfl rfl (.inr (.inr rfl))) rfl unfinished
    · rename_i phase
      have unfinished := unfinished_of_phase phase (fun never => by cases never)
      split at step
      · rename_i answered
        obtain rfl := Option.some.inj step
        refine Guarded.own (h.keep rfl rfl ?_ ?_ ?_) rfl unfinished
        · intro _
          unfold Call.acquired
          rw [phase]
          exact decide_eq_true answered
        · intro never
          cases never
        · intro never
          cases never
      · obtain rfl := Option.some.inj step
        exact Guarded.own (h.clean rfl rfl) Call.clean_backend unfinished
      · obtain rfl := Option.some.inj step
        exact Guarded.own (h.clean rfl rfl) Call.clean_backend unfinished
    · rename_i phase
      have unfinished := unfinished_of_phase phase (fun never => by cases never)
      split at step
      · obtain rfl := Option.some.inj step
        refine Guarded.own (h.keep rfl rfl ?_ ?_ ?_) rfl unfinished
        · intro _
          unfold Call.acquired
          rw [phase]
        · intro _ never
          cases never
        · intro never
          cases never
      · obtain rfl := Option.some.inj step
        exact Guarded.own (h.clean rfl rfl) Call.clean_backend unfinished
    · rename_i phase
      have unfinished := unfinished_of_phase phase (fun never => by cases never)
      split at step
      · obtain rfl := Option.some.inj step
        exact Guarded.own (h.clean rfl rfl) Call.clean_backend unfinished
      · obtain rfl := Option.some.inj step
        exact Guarded.own (h.clean rfl rfl) Call.clean_backend unfinished
    · rename_i phase
      have unfinished := unfinished_of_phase phase (fun never => by cases never)
      obtain rfl := Option.some.inj step
      exact Guarded.own (h.keepClosed rfl rfl (.inr (.inl rfl))) rfl unfinished
    · obtain rfl := Option.some.inj step
      exact ⟨h.keepClosed rfl rfl (.inr (.inr rfl)), rfl, fun _ => rfl⟩
    all_goals cases step

theorem Guarded.probe (h : Guarded server call) (step : call.probe = some next) : Own server call next := by
  unfold Call.probe at step
  split at step
  · cases step
  · split at step
    · obtain rfl := Option.some.inj step
      exact h.ownPhase rfl rfl rfl rfl rfl
    · obtain rfl := Option.some.inj step
      exact h.ownPhase rfl rfl rfl rfl rfl

theorem Guarded.answerProbe (h : Guarded server call) {index : Nat} {wire : Wire}
    (step : call.answerProbe index wire = some next) : Own server call next := by
  unfold Call.answerProbe at step
  split at step
  · cases step
  · split at step
    · obtain rfl := Option.some.inj step
      exact h.ownPhase rfl rfl rfl rfl rfl
    · cases step

theorem Guarded.drain (h : Guarded server call) {index : Nat} (step : call.drain index = some next) :
    Own server call next := by
  unfold Call.drain at step
  split at step
  · cases step
  · split at step
    · cases step
    · obtain rfl := Option.some.inj step
      exact h.ownPhase rfl rfl rfl rfl rfl

theorem Guarded.complete (h : Guarded server call) {completeArgs : List Value}
    (step : call.complete completeArgs = some next) : Own server call next := by
  unfold Call.complete at step
  split at step
  · cases step
  · obtain rfl := Option.some.inj step
    exact h.ownPhase rfl rfl rfl rfl rfl

theorem Guarded.settle (h : Guarded server call) {returnedPromise : Bool} {settlement : Settlement}
    (step : call.settle returnedPromise settlement = some next) : Own server call next := by
  unfold Call.settle at step
  split at step
  · rename_i phase
    obtain rfl := Option.some.inj step
    refine ⟨h.keep rfl rfl ?_ ?_ ?_, rfl, fun finished => ?_⟩
    · intro _
      unfold Call.acquired
      rw [phase]
    · intro _ failed
      exact ⟨Call.isWatched_iff.mpr (.inl phase), failed⟩
    · intro never
      cases never
    · rw [phase] at finished
      cases finished
  · cases step

theorem Guarded.drained (h : Guarded server call) (step : call.drained = some next) : Own server call next := by
  unfold Call.drained at step
  split at step
  · rename_i ready
    obtain ⟨phase, -⟩ := ready
    obtain rfl := Option.some.inj step
    refine ⟨h.keep rfl rfl ?_ ?_ ?_, rfl, fun finished => ?_⟩
    · intro _
      unfold Call.acquired
      rw [phase]
    · intro _ failed
      exact ⟨Call.isWatched_iff.mpr (.inr (.inl phase)), failed⟩
    · intro _ never
      cases never
    · rw [phase] at finished
      cases finished
  · cases step

theorem Guarded.observe (h : Guarded server call) : Guarded server (call.observe server) := by
  unfold Call.observe
  split
  · rename_i watched
    refine ⟨h.holds, ?_, ?_⟩
    · intro _ failed
      by_cases held : call.heldThroughout = true
      · rw [held, Bool.true_and, decide_eq_false_iff_not] at failed
        by_contra alive
        exact failed ⟨alive, h.holds (Call.acquired_of_isWatched watched) alive⟩
      · exact h.lost watched (Bool.eq_false_iff.mpr held)
    · intro phase answered
      rcases Call.isWatched_iff.mp watched with other | other | ⟨-, sent⟩
      · exact absurd (other.symm.trans phase) (by decide)
      · exact absurd (other.symm.trans phase) (by decide)
      · exact absurd (sent.symm.trans answered) (by decide)
  · exact h

theorem Call.observe_backend : (call.observe server).backend = call.backend := by
  unfold Call.observe
  split <;> rfl

theorem Call.observe_phase : (call.observe server).phase = call.phase := by
  unfold Call.observe
  split <;> rfl

/-- A call on a server where its backend has what it had, or has died. -/
theorem Guarded.onServer {after : Server} (h : Guarded server call) (dead : ∀ backend ∈ server.dead, backend ∈ after.dead)
    (kept : call.backend ∉ after.dead → (call.backend, call.lock) ∈ server.locks →
      (call.backend, call.lock) ∈ after.locks) : Guarded after call where
  holds acquired alive := kept alive (h.holds acquired fun died => alive (dead _ died))
  lost watched failed := dead _ (h.lost watched failed)
  verified := h.verified

/-- A call that has finished needs nothing. -/
theorem guarded_of_finished (finished : call.phase = .finished) : Guarded server call where
  holds acquired := by
    unfold Call.acquired at acquired
    rw [finished] at acquired
    cases acquired
  lost watched := by
    rcases Call.isWatched_iff.mp watched with other | other | ⟨other, -⟩ <;>
      exact absurd (other.symm.trans finished) (by decide)
  verified other := absurd (other.symm.trans finished) (by decide)

end Guarded

/-! ### The world -/

structure Inv (world : World) : Prop where
  fresh : ∀ c, world.nextCall ≤ c → world.calls c = none
  exclusive : world.server.Exclusive
  /-- A backend has one call. -/
  apart : ∀ c d call other, world.calls c = some call → world.calls d = some other → c ≠ d →
    call.phase ≠ .finished → other.phase ≠ .finished → call.backend ≠ other.backend
  alone : ∀ c call, world.calls c = some call → Local call
  guarded : ∀ c call, world.calls c = some call → Guarded world.server call

theorem inv_initial : Inv .initial where
  fresh _ _ := rfl
  exclusive _ inside := by cases inside
  apart _ _ _ _ found := by cases found
  alone _ _ found := by cases found
  guarded _ _ found := by cases found

section World

variable {world next : World} {c : CallId} {call callNext : Call}

/-- A step of one call, on a server that keeps what the other backends have. -/
theorem Inv.setCall (h : Inv world) (found : world.calls c = some call) {server : Server}
    (exclusive : server.Exclusive) (dead : server.dead = world.server.dead)
    (others : ∀ backend lock, backend ≠ call.backend → (backend, lock) ∈ world.server.locks →
      (backend, lock) ∈ server.locks)
    (sameServer : call.phase = .finished → server = world.server)
    (alone : Local callNext) (own : Own server call callNext) :
    Inv ({ world with server }.setCall c callNext) where
  fresh d late := by
    show Function.update world.calls c (some callNext) d = none
    by_cases same : d = c
    · rw [same] at late
      rw [h.fresh c late] at found
      cases found
    · rw [Function.update_of_ne same]
      exact h.fresh d late
  exclusive := exclusive
  apart d e first second foundFirst foundSecond distinct firstGoes secondGoes := by
    have unfinished (goes : callNext.phase ≠ .finished) : call.phase ≠ .finished :=
      fun finished => goes (own.finished finished)
    change Function.update world.calls c (some callNext) d = some first at foundFirst
    change Function.update world.calls c (some callNext) e = some second at foundSecond
    by_cases atFirst : d = c
    · subst atFirst
      rw [Function.update_self] at foundFirst
      obtain rfl := Option.some.inj foundFirst
      rw [Function.update_of_ne distinct.symm] at foundSecond
      rw [own.backend]
      exact h.apart _ _ _ _ found foundSecond distinct (unfinished firstGoes) secondGoes
    · rw [Function.update_of_ne atFirst] at foundFirst
      by_cases atSecond : e = c
      · subst atSecond
        rw [Function.update_self] at foundSecond
        obtain rfl := Option.some.inj foundSecond
        rw [own.backend]
        exact h.apart _ _ _ _ foundFirst found distinct firstGoes (unfinished secondGoes)
      · rw [Function.update_of_ne atSecond] at foundSecond
        exact h.apart _ _ _ _ foundFirst foundSecond distinct firstGoes secondGoes
  alone d other foundOther := by
    change Function.update world.calls c (some callNext) d = some other at foundOther
    by_cases same : d = c
    · subst same
      rw [Function.update_self] at foundOther
      obtain rfl := Option.some.inj foundOther
      exact alone
    · rw [Function.update_of_ne same] at foundOther
      exact h.alone d other foundOther
  guarded d other foundOther := by
    change Function.update world.calls c (some callNext) d = some other at foundOther
    show Guarded server other
    by_cases same : d = c
    · subst same
      rw [Function.update_self] at foundOther
      obtain rfl := Option.some.inj foundOther
      exact own.guarded
    · rw [Function.update_of_ne same] at foundOther
      have guarded := h.guarded d other foundOther
      by_cases otherEnds : other.phase = .finished
      · exact guarded_of_finished otherEnds
      · by_cases callEnds : call.phase = .finished
        · rwa [sameServer callEnds]
        · refine guarded.onServer (fun backend died => dead ▸ died) fun _ inside => ?_
          exact others _ _ (h.apart d c other call foundOther found same otherEnds callEnds) inside

theorem Inv.ofCall (h : Inv world) {move : Call → Option Call}
    (alone : ∀ call callNext, world.calls c = some call → Local call → Guarded world.server call →
      move call = some callNext → Local callNext)
    (own : ∀ call callNext, Guarded world.server call → move call = some callNext → Own world.server call callNext)
    (step : world.ofCall c move = some next) : Inv next := by
  obtain ⟨call, found, rest⟩ := Option.bind_eq_some_iff.mp step
  obtain ⟨callNext, moved, same⟩ := Option.bind_eq_some_iff.mp rest
  obtain rfl := Option.some.inj same
  exact h.setCall found h.exclusive rfl (fun _ _ _ inside => inside) (fun _ => rfl)
    (alone call callNext found (h.alone c call found) (h.guarded c call found) moved)
    (own call callNext (h.guarded c call found) moved)

/-- A statement that fails. -/
theorem Guarded.failWire {server : Server} (h : Guarded server call) : Guarded server { call with wire := .failed } := by
  refine h.keep rfl rfl ?_ ?_ ?_
  · unfold Call.acquired
    cases call.phase <;> first | exact id | (intro never; cases never)
  · intro watched failed
    refine ⟨?_, failed⟩
    rw [Call.isWatched_iff] at watched ⊢
    rcases watched with phase | phase | ⟨-, never⟩
    · exact .inl phase
    · exact .inr (.inl phase)
    · cases never
  · intro _ never
    cases never

theorem Inv.failWire (h : Inv world) (found : world.calls c = some call) :
    Inv (world.setCall c { call with wire := .failed }) :=
  h.setCall found h.exclusive rfl (fun _ _ _ inside => inside) (fun _ => rfl)
    ((h.alone c call found).withWire id id (fun _ never => by cases never) fun _ never => by cases never)
    ⟨(h.guarded c call found).failWire, rfl, id⟩

/-- A call whose statement was executed. -/
theorem Guarded.executed {server : Server} (h : Guarded server call) {statement : Statement}
    (sending : call.phase.statement = some statement) (sent : call.wire = .sent) {answered denied confirmed : Bool}
    {wire : Wire}
    (onWire : wire = if answered then .answered (statement.execute server call.backend call.lock).2 else .failed) :
    Guarded (statement.execute server call.backend call.lock).1 { call with wire, denied, confirmed } := by
  have ok (same : wire = .answered true) : (statement.execute server call.backend call.lock).2 = true := by
    rw [same] at onWire
    cases answered with
    | true => exact (Wire.answered.inj onWire).symm
    | false => cases onWire
  have unsent (same : wire = .sent) : False := by
    rw [same] at onWire
    cases answered <;> cases onWire
  constructor
  · intro acquired alive
    rw [Statement.execute_dead] at alive
    cases phase : call.phase <;> simp only [Call.acquired, phase, Phase.statement] at acquired sending
    case locking =>
      obtain rfl := Option.some.inj sending
      have took := ok (of_decide_eq_true acquired)
      simp only [Statement.execute] at took ⊢
      split at took
      · cases took
      · rename_i free
        rw [if_neg free]
        exact List.mem_cons_self
    case confirming =>
      obtain rfl := Option.some.inj sending
      exact h.holds (by rw [Call.acquired, phase]) alive
    case verifying =>
      obtain rfl := Option.some.inj sending
      exact h.holds (by rw [Call.acquired, phase]) alive
    case running => cases sending
    case draining => cases sending
    all_goals cases acquired
  · intro watched
    rcases Call.isWatched_iff.mp watched with phase | phase | ⟨-, same⟩
    · rw [show call.phase = _ from phase] at sending
      cases sending
    · rw [show call.phase = _ from phase] at sending
      cases sending
    · exact (unsent same).elim
  · intro phase same
    change call.phase = .verifying at phase
    have held := ok same
    rw [phase] at sending
    obtain rfl := Option.some.inj sending
    by_contra failed
    have died := h.lost (Call.isWatched_iff.mpr (.inr (.inr ⟨phase, sent⟩))) (Bool.not_eq_true _ ▸ failed)
    exact (of_decide_eq_true held).1 died

theorem Inv.execute (h : Inv world) {answered : Bool} (step : world.execute c answered = some next) : Inv next := by
  obtain ⟨call, found, rest⟩ := Option.bind_eq_some_iff.mp step
  obtain ⟨statement, sending, rest⟩ := Option.bind_eq_some_iff.mp rest
  dsimp only at rest
  split at rest
  · cases rest
  · rename_i sent
    rw [not_not] at sent
    split at rest
    · obtain rfl := Option.some.inj rest
      exact h.failWire found
    · obtain rfl := Option.some.inj rest
      have unfinished : call.phase ≠ .finished := by
        intro finished
        rw [finished] at sending
        cases sending
      refine h.setCall found (Statement.execute_exclusive h.exclusive) Statement.execute_dead
        (fun _ _ apart inside => Statement.execute_others apart inside) (fun finished => absurd finished unfinished)
        ?_ ⟨(h.guarded c call found).executed sending sent rfl, rfl, id⟩
      refine (h.alone c call found).withWire (fun denied => by rw [denied, Bool.true_or])
        (fun confirmed => by rw [confirmed, Bool.true_or]) ?_ ?_
      · intro phase same
        rw [phase] at sending
        obtain rfl := Option.some.inj sending
        cases answered with
        | true =>
          rw [Wire.answered.inj same]
          exact Bool.or_true call.denied
        | false => cases same
      · intro phase same
        cases answered with
        | true =>
          rw [Wire.answered.inj same, phase]
          exact Bool.or_true call.confirmed
        | false => cases same

theorem Inv.lose (h : Inv world) {tookEffect : Bool} (step : world.lose c tookEffect = some next) : Inv next := by
  unfold World.lose at step
  split at step
  · exact h.execute step
  · obtain ⟨call, found, rest⟩ := Option.bind_eq_some_iff.mp step
    obtain ⟨statement, -, rest⟩ := Option.bind_eq_some_iff.mp rest
    split at rest
    · cases rest
    · obtain rfl := Option.some.inj rest
      exact h.failWire found

theorem Inv.executeProbe (h : Inv world) {index : Nat} (step : world.executeProbe c index = some next) :
    Inv next := by
  refine h.ofCall ?_ ?_ step
  · intro call callNext _ alone _ moved
    split at moved
    · exact alone.answerProbe moved
    · exact alone.answerProbe moved
  · intro call callNext guarded moved
    split at moved
    · exact guarded.answerProbe moved
    · exact guarded.answerProbe moved

/-- The backend of an unfinished call is not free. -/
theorem Inv.backend_of_isFree (h : Inv world) {backend : BackendId} (free : world.IsFree backend = true)
    (found : world.calls c = some call) (unfinished : call.phase ≠ .finished) : call.backend ≠ backend := by
  have inside : c < world.nextCall := by
    by_contra late
    rw [h.fresh c (Nat.le_of_not_lt late)] at found
    cases found
  have checked := List.all_eq_true.mp free c (List.mem_range.mpr inside)
  rw [found, Option.all_some, Bool.or_eq_true, decide_eq_true_eq, decide_eq_true_eq] at checked
  exact checked.resolve_left unfinished

theorem Inv.begin (h : Inv world) {lock : Lock} {backend : BackendId} (free : world.IsFree backend = true) :
    Inv { world.setCall world.nextCall (.begun lock backend) with nextCall := world.nextCall + 1 } where
  fresh d late := by
    show Function.update world.calls world.nextCall _ d = none
    rw [Function.update_of_ne (Nat.ne_of_gt late)]
    exact h.fresh d (Nat.le_of_lt late)
  exclusive := h.exclusive
  apart d e first second foundFirst foundSecond distinct firstGoes secondGoes := by
    change Function.update world.calls world.nextCall _ d = some first at foundFirst
    change Function.update world.calls world.nextCall _ e = some second at foundSecond
    by_cases atFirst : d = world.nextCall
    · rw [atFirst, Function.update_self] at foundFirst
      obtain rfl := Option.some.inj foundFirst
      rw [Function.update_of_ne (fun same => distinct (atFirst.trans same.symm))] at foundSecond
      exact (h.backend_of_isFree free foundSecond secondGoes).symm
    · rw [Function.update_of_ne atFirst] at foundFirst
      by_cases atSecond : e = world.nextCall
      · rw [atSecond, Function.update_self] at foundSecond
        obtain rfl := Option.some.inj foundSecond
        exact h.backend_of_isFree free foundFirst firstGoes
      · rw [Function.update_of_ne atSecond] at foundSecond
        exact h.apart _ _ _ _ foundFirst foundSecond distinct firstGoes secondGoes
  alone d other foundOther := by
    change Function.update world.calls world.nextCall _ d = some other at foundOther
    by_cases same : d = world.nextCall
    · rw [same, Function.update_self] at foundOther
      obtain rfl := Option.some.inj foundOther
      exact local_begun lock backend
    · rw [Function.update_of_ne same] at foundOther
      exact h.alone d other foundOther
  guarded d other foundOther := by
    change Function.update world.calls world.nextCall _ d = some other at foundOther
    by_cases same : d = world.nextCall
    · rw [same, Function.update_self] at foundOther
      obtain rfl := Option.some.inj foundOther
      exact ⟨(fun never => by cases never), (fun never => by cases never), fun never => by cases never⟩
    · rw [Function.update_of_ne same] at foundOther
      exact h.guarded d other foundOther

theorem Inv.die (h : Inv world) (backend : BackendId) : Inv { world with server := world.server.die backend } where
  fresh := h.fresh
  exclusive := h.exclusive.of_subset fun _ inside => (List.mem_filter.mp inside).1
  apart := h.apart
  alone := h.alone
  guarded d other found := by
    refine (h.guarded d other found).onServer (fun _ died => List.mem_cons_of_mem _ died) fun alive inside => ?_
    refine List.mem_filter.mpr ⟨inside, decide_eq_true fun same => alive ?_⟩
    exact same ▸ List.mem_cons_self

theorem Inv.observe (h : Inv world) : Inv world.observe := by
  have seen {d : CallId} {other : Call} (found : (world.calls d).map (·.observe world.server) = some other) :
      ∃ before, world.calls d = some before ∧ before.observe world.server = other := by
    cases before : world.calls d with
    | none =>
      rw [before] at found
      cases found
    | some call =>
      rw [before] at found
      exact ⟨call, rfl, Option.some.inj found⟩
  constructor
  · intro d late
    show (world.calls d).map _ = none
    rw [h.fresh d late, Option.map_none]
  · exact h.exclusive
  · intro d e first second foundFirst foundSecond distinct firstGoes secondGoes
    obtain ⟨first, beforeFirst, rfl⟩ := seen foundFirst
    obtain ⟨second, beforeSecond, rfl⟩ := seen foundSecond
    rw [Call.observe_phase] at firstGoes secondGoes
    rw [Call.observe_backend, Call.observe_backend]
    exact h.apart d e first second beforeFirst beforeSecond distinct firstGoes secondGoes
  · intro d other found
    obtain ⟨call, before, rfl⟩ := seen found
    exact (h.alone d call before).observe world.server
  · intro d other found
    obtain ⟨call, before, rfl⟩ := seen found
    exact (h.guarded d call before).observe

theorem Inv.step (h : Inv world) {event : Event} (step : world.step event = some next) : Inv next := by
  obtain ⟨moved, transition, rfl⟩ := Option.map_eq_some_iff.mp step
  apply Inv.observe
  cases event with
  | begin lock backend =>
    simp only [World.transition] at transition
    split at transition
    · rename_i free
      obtain rfl := Option.some.inj transition
      exact h.begin free
    · cases transition
  | execute d => exact h.execute transition
  | lose d tookEffect => exact h.lose transition
  | deliver d releaseFails =>
    refine h.ofCall (fun call callNext _ alone guarded moved => ?_) (fun _ _ guarded moved => guarded.deliver moved)
      transition
    exact alone.deliver guarded.verified moved
  | probe d =>
    exact h.ofCall (fun _ _ _ alone _ moved => alone.probe moved) (fun _ _ guarded moved => guarded.probe moved)
      transition
  | executeProbe d index => exact h.executeProbe transition
  | loseProbe d index =>
    exact h.ofCall (fun _ _ _ alone _ moved => alone.answerProbe moved)
      (fun _ _ guarded moved => guarded.answerProbe moved) transition
  | drain d index =>
    exact h.ofCall (fun _ _ _ alone _ moved => alone.drain moved) (fun _ _ guarded moved => guarded.drain moved)
      transition
  | complete d completeArgs =>
    exact h.ofCall (fun _ _ _ alone _ moved => alone.complete moved)
      (fun _ _ guarded moved => guarded.complete moved) transition
  | settle d returnedPromise settlement =>
    exact h.ofCall (fun _ _ _ alone _ moved => alone.settle moved) (fun _ _ guarded moved => guarded.settle moved)
      transition
  | drained d =>
    exact h.ofCall (fun _ _ _ alone _ moved => alone.drained moved) (fun _ _ guarded moved => guarded.drained moved)
      transition
  | die backend =>
    obtain rfl := Option.some.inj transition
    exact h.die backend

theorem inv_of_run {trace : List Event} (run : Traces.Run guards trace world) : Inv world := by
  refine @Traces.Run.invariant _ _ _ (fun _ world => Inv world) ?_ ?_ _ _ run
  · rintro _ rfl
    exact inv_initial
  · rintro _ _ _ _ h ⟨event, step, -⟩
    exact h.step step

end World

/-! ### The laws -/

/-- What the guards of any number of processes keep at any time. -/
structure GuardLaws (world : World) : Prop where
  /-- A call runs its callback at most once, and it has looked at its lock before. -/
  once : ∀ c call, world.calls c = some call → call.started ≤ 1 ∧ (call.started ≠ 0 → call.confirmed = true)
  /-- A backend has the lock while the callback runs and until it was drained, unless it has died. -/
  running : ∀ c call, world.calls c = some call → call.phase = .running ∨ call.phase = .draining →
    call.started = 1 ∧ (world.server.Holds call.backend call.lock ∨ call.backend ∈ world.server.dead)
  /-- Two callbacks whose locks conflict do not run at once, unless a backend has died. -/
  excludes : ∀ c d call other, c ≠ d → world.calls c = some call → world.calls d = some other →
    call.phase = .running → other.phase = .running → call.lock.key = other.lock.key →
    call.lock.mode.Conflicts other.lock.mode →
    call.backend ∈ world.server.dead ∨ other.backend ∈ world.server.dead
  /-- The callback's own result or error. -/
  own : ∀ c call outcome, world.calls c = some call → call.outcome = some outcome →
    (∃ value, outcome = .result value) ∨ (∃ error, outcome = .error error) →
    call.started = 1 ∧ call.confirmed = true ∧ call.heldThroughout = true ∧ call.earlyFailed = false ∧
      (∀ probe ∈ call.probes, probe.early = false) ∧ call.unlocked = true ∧ call.wasReset = true
  busy : ∀ c call, world.calls c = some call → call.outcome = some .busy →
    call.denied = true ∧ call.started = 0

section Laws

variable {world : World} {call : Call}

theorem Stage.once (h : Stage call) : Once call := by
  cases phase : call.phase <;> simp only [Stage, StageAt, phase] at h
  case resetting => exact h.once
  case locking => exact h.1.once
  case confirming => exact h.1.once
  case running => exact h.1.once
  case draining => exact h.1.once
  case verifying => exact h.1.once
  case unlocking => exact h.1.once
  case cleaning => exact h.1.once
  case finished => exact h.1

theorem Stage.reported (h : Stage call) {outcome : Outcome} (reports : call.outcome = some outcome) :
    Reported call outcome := by
  have before (none : call.outcome = none) : Reported call outcome := by
    rw [reports] at none
    cases none
  cases phase : call.phase <;> simp only [Stage, StageAt, phase] at h
  case resetting => exact before h.outcome
  case locking => exact before h.1.outcome
  case confirming => exact before h.1.outcome
  case running => exact before h.1.outcome
  case draining => exact before h.1.outcome
  case verifying => exact before h.1.outcome
  case unlocking => exact before h.2.2.2
  case cleaning => exact before h.2.2
  case finished =>
    obtain ⟨-, -, -, other, same, reported⟩ := h
    obtain rfl := Option.some.inj (same.symm.trans reports)
    exact reported

theorem Inv.holds (h : Inv world) {c : CallId} (found : world.calls c = some call)
    (runs : call.phase = .running ∨ call.phase = .draining) (alive : call.backend ∉ world.server.dead) :
    world.server.Holds call.backend call.lock := by
  refine ⟨alive, (h.guarded c call found).holds ?_ alive⟩
  rcases runs with phase | phase <;> rw [Call.acquired, phase]

end Laws

theorem guardLaws {trace : List Event} {world : World} (run : Traces.Run guards trace world) :
    GuardLaws world := by
  have inv := inv_of_run run
  constructor
  · intro c call found
    have once := (inv.alone c call found).stage.once
    exact ⟨once.atMost, once.confirmed⟩
  · intro c call found runs
    constructor
    · have stage := (inv.alone c call found).stage
      rcases runs with phase | phase
      · rw [Stage, phase] at stage
        exact stage.1.started
      · rw [Stage, phase] at stage
        exact stage.1.started
    · by_cases died : call.backend ∈ world.server.dead
      · exact .inr died
      · exact .inl (inv.holds found runs died)
  · intro c d call other distinct found foundOther phase otherPhase sameKey conflict
    by_contra alive
    rw [not_or] at alive
    have holds := inv.holds found (.inl phase) alive.1
    have otherHolds := inv.holds foundOther (.inl otherPhase) alive.2
    refine inv.exclusive _ holds.2 _ otherHolds.2 ?_ sameKey conflict
    refine inv.apart c d call other found foundOther distinct ?_ ?_
    · rw [phase]
      intro never
      cases never
    · rw [otherPhase]
      intro never
      cases never
  · intro c call outcome found reports own
    have reported := (inv.alone c call found).stage.reported reports
    rcases reported.own with ⟨noResult, noError⟩ | ⟨verified, unlocked, wasReset⟩
    · rcases own with ⟨value, result⟩ | ⟨error, failed⟩
      · exact absurd result (noResult value)
      · exact absurd failed (noError error)
    · exact ⟨verified.started, verified.confirmed, verified.heldThroughout, verified.earlyFailed,
        verified.noEarly, unlocked, wasReset⟩
  · intro c call found reports
    exact ((inv.alone c call found).stage.reported reports).busy rfl

/-! ### Runs -/

def runEvents (world : World) (events : List Event) : Option World := events.foldlM World.step world

theorem run_of_runEvents {world : World} {events : List Event}
    (h : runEvents .initial events = some world) : Traces.Run guards events world := by
  have first : Traces.Run guards [] World.initial := .start rfl
  exact first.foldlM (fun event _ _ _ step => ⟨event, step, rfl⟩) h

def firstLock : Lock := { key := 7, mode := .exclusive }

/-- A call up to the start of its callback. -/
def startEvents : List Event :=
  [.begin firstLock 1, .execute 0, .deliver 0 false, .execute 0, .deliver 0 false, .execute 0, .deliver 0 false]

/-- A callback that probes its lock once and fulfils with its completion. -/
def firstResultEvents : List Event :=
  startEvents ++ [.probe 0, .executeProbe 0 0, .complete 0 [{ id := 5, safe := true }],
    .settle 0 true (.fulfilled .carrier), .drain 0 0, .drained 0, .execute 0, .deliver 0 false, .execute 0,
    .deliver 0 false, .execute 0, .deliver 0 false]

theorem guardLaws_firstResult : ∃ world call, runEvents .initial firstResultEvents = some world ∧
    world.calls 0 = some call ∧ call.outcome = some (.result { id := 5, safe := true }) ∧
    call.started = 1 ∧ call.heldThroughout = true ∧ call.unlocked = true := by
  have reported : ((runEvents .initial firstResultEvents).bind (·.calls 0)).bind (·.outcome) =
      some (.result { id := 5, safe := true }) := by decide +kernel
  obtain ⟨call, found, reports⟩ := Option.bind_eq_some_iff.mp reported
  obtain ⟨world, ran, found⟩ := Option.bind_eq_some_iff.mp found
  have laws := guardLaws (run_of_runEvents ran)
  have own := laws.own 0 call _ found reports (.inl ⟨_, rfl⟩)
  exact ⟨world, call, ran, found, reports, own.1, own.2.2.1, own.2.2.2.2.2.1⟩

/-- The backend of a running callback dies, and the lock is gone. -/
theorem not_holds_of_backend_death :
    ¬ ∀ trace world, Traces.Run guards trace world → ∀ c call, world.calls c = some call →
      call.phase = .running → world.server.Holds call.backend call.lock := by
  intro holds
  obtain ⟨world, ran⟩ : ∃ world, runEvents .initial (startEvents ++ [.die 1]) = some world := ⟨_, rfl⟩
  obtain ⟨call, found, phase, died⟩ : ∃ call, world.calls 0 = some call ∧ call.phase = .running ∧
      call.backend ∈ world.server.dead := by
    obtain rfl := Option.some.inj ran
    exact ⟨_, rfl, rfl, List.mem_cons_self⟩
  exact (holds _ world (run_of_runEvents ran) 0 call found phase).1 died

end PortableCodex.OperationGuard
