import PortableCodex.SerializableStore.Store

/-!
When `runSerializable` is honest.

A statement of the callback can commit the transaction of its attempt; the recheck behind it then finds
another transaction ID and the outcome is reported as uncertain. But a retryable SQLSTATE in the answer to
that recheck is taken for a rollback of the transaction (`applied_twice`). In the runs without such an
answer a callback is applied at most once, and what is reported is true.
-/

namespace PortableCodex.SerializableStore

variable {Value : Type}

/-! ### What is reported -/

/-- What an outcome says of the attempts. -/
structure Honest (s : State Value) (outcome : Outcome Value) : Prop where
  fulfilled : ∀ value, outcome = .fulfilled value → s.committed = [s.attempt] ∧
    s.settlement = some (.returned value) ∧ s.capability.unacknowledged = false
  notCommitted : ∀ code, outcome = .rejected code .notCommitted → s.committed = []
  committed : ∀ code, outcome = .rejected code .committed → s.committed = [s.attempt]
  rethrown : ∀ error, outcome = .rethrown error → s.committed = []

structure RunLaws (s : State Value) : Prop where
  /-- At most one attempt is committed, and no other follows it. -/
  once : s.committed = [] ∨ s.committed = [s.attempt]
  honest : ∀ outcome, s.phase = .finished outcome → Honest s outcome

/-- No retryable SQLSTATE answers a recheck behind a statement that committed the transaction. -/
def Trusted (s : State Value) (event : Event Value) : Prop :=
  s.tx = .committed → event ≠ .recheck .retryable

/-- The runs without such an answer. -/
def trustedRuns (Value : Type) (maxTransactionAttempts : Nat) : Traces.System (State Value) (Event Value) where
  start s := s = .initial maxTransactionAttempts
  step s events next := ∃ event, s.step event = some next ∧ Trusted s event ∧ events = [event]

/-! ### The capability -/

/-- What the capability knows of the transaction. -/
structure Watches (tx : Tx) (capability : Capability) : Prop where
  committed : tx = .committed → capability.boundaryLost = true ∨ ∃ failure, capability.current = some (.rechecking failure)
  retryable : capability.retryableBoundaryRollback = true → tx ≠ .committed ∧ capability.current = none
  unacknowledged : capability.unacknowledged = true → capability.boundaryLost = true ∨
    capability.retryableBoundaryRollback = true ∨ capability.firstQueryFailure ≠ none
  terminal : capability.terminalQueryError ≠ none → capability.boundaryLost = true ∨ capability.firstQueryFailure ≠ none

section Capability

variable {tx : Tx} {capability next : Capability}

theorem watches_create (attempt : Nat) (live : tx = .live) : Watches tx (.create attempt) where
  committed ended := by
    rw [live] at ended
    cases ended
  retryable never := by cases never
  unacknowledged never := by cases never
  terminal some := absurd rfl some

theorem or_ne_none {α : Type} (a : Option α) (b : α) : a.or (some b) ≠ none := by
  cases a with
  | none => exact Option.some_ne_none b
  | some a => exact Option.some_ne_none a

theorem Watches.issue (h : Watches tx capability) (validArgs : Bool) : Watches tx (capability.issue validArgs) := by
  unfold Capability.issue
  split
  · dsimp only
    split
    · refine ⟨h.committed, h.retryable, ?_, ?_⟩
      · intro _
        exact .inr (.inr (or_ne_none _ _))
      · intro _
        exact .inr (or_ne_none _ _)
    · rename_i valid
      rw [Bool.not_eq_true, Bool.not_eq_false'] at valid
      split
      · rename_i terminal
        refine ⟨h.committed, h.retryable, ?_, h.terminal⟩
        intro _
        rcases h.terminal (Option.isSome_iff_ne_none.mp terminal) with lost | failed
        · exact .inl lost
        · exact .inr (.inr failed)
      · refine ⟨h.committed, h.retryable, ?_, h.terminal⟩
        intro unacknowledged
        apply h.unacknowledged
        rwa [valid, Bool.not_true, Bool.or_false] at unacknowledged
  · exact h

theorem Watches.start (h : Watches tx capability) (step : capability.start = some next) : Watches tx next := by
  unfold Capability.start at step
  split at step
  · cases step
  · rename_i ready
    rw [not_or] at ready
    have idle : capability.current = none := Option.not_isSome_iff_eq_none.mp ready.2
    dsimp only at step
    split at step
    · rename_i refused
      obtain rfl := Option.some.inj step
      refine ⟨h.committed, h.retryable, fun _ => ?_, h.terminal⟩
      rcases Bool.or_eq_true_iff.mp refused with earlier | retryable
      · rcases Bool.or_eq_true_iff.mp earlier with terminal | lost
        · rcases h.terminal (Option.isSome_iff_ne_none.mp terminal) with lost | failed
          · exact .inl lost
          · exact .inr (.inr failed)
        · exact .inl lost
      · exact .inr (.inl retryable)
    · rename_i goes
      rw [Bool.not_eq_true, Bool.or_eq_false_iff] at goes
      obtain rfl := Option.some.inj step
      refine ⟨fun ended => ?_, fun retryable => ?_, h.unacknowledged, h.terminal⟩
      · rcases h.committed ended with lost | ⟨failure, rechecking⟩
        · exact .inl lost
        · rw [idle] at rechecking
          cases rechecking
      · exact absurd (retryable.symm.trans goes.2) Bool.false_ne_true.symm

theorem Tx.after_ne_committed {tx : Tx} {effect : Effect} (before : tx ≠ .committed) (other : effect ≠ .commits) :
    tx.after effect ≠ .committed := by
  cases tx with
  | live =>
    cases effect with
    | none => exact before
    | commits => exact absurd rfl other
    | rollsBack =>
      intro never
      cases never
  | rolledBack => exact before
  | committed => exact absurd rfl before

/-- A statement of the callback. -/
theorem Watches.answer (h : Watches tx capability) (querying : capability.current = some .querying) (answer : Answer) :
    Watches (tx.after (State.Answer.effect answer)) (capability.answer answer) := by
  have notRetryable : capability.retryableBoundaryRollback = false := by
    rw [← Bool.not_eq_true]
    intro retryable
    rw [(h.retryable retryable).2] at querying
    cases querying
  have before (kept : capability.boundaryLost = false) : tx ≠ .committed := by
    intro ended
    rcases h.committed ended with lost | ⟨failure, rechecking⟩
    · rw [kept] at lost
      cases lost
    · rw [querying] at rechecking
      cases rechecking
  cases answer with
  | ok effect callbackFailure =>
    refine ⟨fun _ => .inr ⟨callbackFailure, rfl⟩, fun retryable => ?_, h.unacknowledged, h.terminal⟩
    exact absurd (retryable.symm.trans notRetryable) Bool.false_ne_true.symm
  | rejected error retryable endsTransaction rollbackUnsafe =>
    have failed : ((capability.markRollbackUnsafe rollbackUnsafe).rejectQuery error retryable).firstQueryFailure ≠ none := by
      unfold Capability.rejectQuery
      dsimp only
      split <;> exact Option.some_ne_none _
    refine ⟨fun ended => ?_, fun retryable => ?_, fun _ => .inr (.inr failed), fun _ => .inr failed⟩
    · left
      show (capability.boundaryLost || rollbackUnsafe) = true
      cases kept : capability.boundaryLost with
      | true => exact Bool.true_or _
      | false =>
        refine absurd ended (Tx.after_ne_committed (before kept) ?_)
        unfold State.Answer.effect
        dsimp only
        split <;> intro never <;> cases never
    · exact absurd (retryable.symm.trans notRetryable) Bool.false_ne_true.symm
  | failed error effect rollbackUnsafe =>
    refine ⟨fun _ => .inl rfl, fun retryable => ?_, fun _ => .inl rfl, fun _ => .inl rfl⟩
    exact absurd (retryable.symm.trans notRetryable) Bool.false_ne_true.symm
  | notBuilt =>
    refine ⟨fun ended => ?_, fun retryable => ?_, fun _ => .inr (.inr (or_ne_none _ _)), fun _ => .inr (or_ne_none _ _)⟩
    · left
      show capability.boundaryLost = true
      cases kept : capability.boundaryLost with
      | true => rfl
      | false =>
        refine absurd ended (Tx.after_ne_committed (before kept) ?_)
        intro never
        cases never
    · exact absurd (retryable.symm.trans notRetryable) Bool.false_ne_true.symm

/-- A recheck, which finds the transaction live or ends the trust in it. -/
theorem Watches.recheck (h : Watches tx capability) {failure : Option JsError}
    (rechecking : capability.current = some (.rechecking failure)) (recheck : Recheck)
    (same : recheck = .same → tx = .live) (trusted : recheck = .retryable → tx ≠ .committed) :
    Watches (tx.after (if recheck = .retryable then .rollsBack else .none)) (capability.recheck failure recheck) := by
  have notRetryable : capability.retryableBoundaryRollback = false := by
    rw [← Bool.not_eq_true]
    intro retryable
    rw [(h.retryable retryable).2] at rechecking
    cases rechecking
  cases recheck with
  | same =>
    have live := same rfl
    subst live
    cases failure with
    | none =>
      refine ⟨fun never => (by cases never), fun retryable => ?_, h.unacknowledged, h.terminal⟩
      exact absurd (retryable.symm.trans notRetryable) Bool.false_ne_true.symm
    | some error =>
      refine ⟨fun never => (by cases never), fun retryable => ?_, fun _ => .inr (.inr (or_ne_none _ _)),
        fun _ => .inr (or_ne_none _ _)⟩
      exact absurd (retryable.symm.trans notRetryable) Bool.false_ne_true.symm
  | retryable =>
    have kept : tx.after .rollsBack ≠ .committed :=
      Tx.after_ne_committed (trusted rfl) fun never => by cases never
    exact ⟨fun ended => absurd ended kept, fun _ => ⟨kept, rfl⟩, fun _ => .inr (.inl rfl), h.terminal⟩
  | other =>
    refine ⟨fun _ => .inl rfl, fun retryable => ?_, fun _ => .inl rfl, fun _ => .inl rfl⟩
    exact absurd (retryable.symm.trans notRetryable) Bool.false_ne_true.symm

end Capability

/-! ### Attempts -/

/-- The last attempt is the only one that can be committed. -/
def Counted (s : State Value) : Prop := s.committed = if s.tx = .committed then [s.attempt] else []

/-- What can follow an attempt that was not committed. -/
def Negative : After Value → Prop
  | .retry => True
  | .ends (.fulfilled _) => False
  | .ends (.rejected _ commitState) => commitState = .notCommitted
  | .ends (.rethrown _) => True

/-- What an outcome says of the transaction of the last attempt. -/
def Tells (s : State Value) : Outcome Value → Prop
  | .fulfilled value => s.tx = .committed ∧ s.settlement = some (.returned value) ∧ s.capability.unacknowledged = false
  | .rejected _ .notCommitted => s.tx ≠ .committed
  | .rejected _ .uncertain => True
  | .rejected _ .committed => s.tx = .committed
  | .rethrown _ => s.tx ≠ .committed

/-- A callback that has returned, with all its operations acknowledged. -/
structure Ready (s : State Value) (value : Value) : Prop where
  uncommitted : s.tx ≠ .committed
  settlement : s.settlement = some (.returned value)
  acknowledged : s.capability.unacknowledged = false

/-- A transaction whose end is known. -/
def Fits (s : State Value) (after : After Value) : CommitState → Prop
  | .notCommitted => s.tx ≠ .committed ∧ Negative after
  | .uncertain => False
  | .committed => s.tx = .committed ∧ ∃ outcome, after = .ends outcome ∧ Tells s outcome

def StageAt (s : State Value) : Phase Value → Prop
  | .connecting | .cleaning | .beginning => s.tx ≠ .committed
  | .timestamping => s.tx = .live
  | .running => Watches s.tx s.capability
  | .closing settlement _ => Watches s.tx s.capability ∧ s.settlement = some settlement
  | .rollingBack after => s.tx ≠ .committed ∧ Negative after
  | .settingDurable value | .checkingDurable value | .committing value => Ready s value
  | .resetting commitState after | .releasing commitState after => Fits s after commitState
  | .abandoning _ outcome | .finished outcome => Tells s outcome

structure Inv (s : State Value) : Prop where
  counted : Counted s
  stage : StageAt s s.phase

section Attempts

variable {s next : State Value}

theorem Counted.affect (h : Counted s) (effect : Effect) : Counted (s.affect effect) := by
  unfold Counted at h ⊢
  unfold State.affect
  cases tx : s.tx <;> cases effect <;> rw [tx] at h <;> simp_all [Tx.after]

theorem affect_ne_committed {effect : Effect} (before : s.tx ≠ .committed) (other : effect ≠ .commits) :
    (s.affect effect).tx ≠ .committed := Tx.after_ne_committed before other

theorem affect_keeps_committed {effect : Effect} (before : s.tx = .committed) : (s.affect effect).tx = .committed := by
  show s.tx.after effect = .committed
  rw [before]
  cases effect <;> rfl

theorem Tells.affect {outcome : Outcome Value} (h : Tells s outcome) {effect : Effect} (other : effect ≠ .commits) :
    Tells (s.affect effect) outcome := by
  cases outcome with
  | fulfilled value => exact ⟨affect_keeps_committed h.1, h.2.1, h.2.2⟩
  | rejected code commitState =>
    cases commitState with
    | notCommitted => exact affect_ne_committed h other
    | uncertain => exact trivial
    | committed => exact affect_keeps_committed h
  | rethrown error => exact affect_ne_committed h other

theorem rollsBack_ne_commits : Effect.rollsBack ≠ .commits := by
  intro never
  cases never

theorem inv_initial (maxTransactionAttempts : Nat) : Inv (.initial maxTransactionAttempts : State Value) where
  counted := rfl
  stage := by
    intro never
    cases never

theorem Inv.retry (h : Counted s) (before : s.tx ≠ .committed) : Inv s.retry := by
  unfold Counted at h
  rw [if_neg before] at h
  unfold State.retry
  split
  · refine ⟨h, ?_⟩
    intro never
    cases never
  · exact ⟨by rw [Counted]; exact (if_neg before).symm ▸ h, before⟩

theorem Inv.goOn (h : Counted s) {after : After Value} {commitState : CommitState} (fits : Fits s after commitState) :
    Inv (s.goOn after) := by
  cases after with
  | retry =>
    cases commitState with
    | notCommitted => exact Inv.retry h fits.1
    | uncertain => exact fits.elim
    | committed =>
      obtain ⟨-, outcome, same, -⟩ := fits
      cases same
  | ends outcome =>
    refine ⟨h, ?_⟩
    show Tells s outcome
    cases commitState with
    | notCommitted =>
      obtain ⟨uncommitted, negative⟩ := fits
      cases outcome with
      | fulfilled value => exact negative.elim
      | rejected code commitState =>
        obtain rfl : commitState = .notCommitted := negative
        exact uncommitted
      | rethrown error => exact uncommitted
    | uncertain => exact fits.elim
    | committed =>
      obtain ⟨-, other, same, tells⟩ := fits
      obtain rfl := After.ends.inj same
      exact tells

theorem negative_afterRollback (s : State Value) (error : JsError) : Negative (s.afterRollback error) := by
  unfold State.afterRollback
  split
  · split
    · exact trivial
    · exact rfl
  · split
    · exact rfl
    · exact trivial

theorem Inv.close (h : Counted s) {settlement : Settlement Value} {queryPending : Bool}
    (watches : Watches s.tx s.capability) (settled : s.settlement = some settlement)
    (drained : s.capability.queryPending = false) : Inv (s.close settlement queryPending) := by
  unfold State.close
  dsimp only
  split
  · rename_i retryable
    exact ⟨h, (watches.retryable retryable).1, trivial⟩
  · rename_i notRetryable
    split
    · exact ⟨h, trivial⟩
    · rename_i kept
      have uncommitted : s.tx ≠ .committed := by
        intro ended
        rcases watches.committed ended with lost | ⟨failure, rechecking⟩
        · exact kept lost
        · unfold Capability.queryPending at drained
          rw [rechecking, Option.isSome_some, Bool.or_true] at drained
          cases drained
      split
      · exact ⟨h, uncommitted, negative_afterRollback _ _⟩
      · split
        · exact ⟨h, uncommitted, negative_afterRollback _ _⟩
        · split
          · exact ⟨h, uncommitted, negative_afterRollback _ _⟩
          · rename_i noFailure
            refine ⟨h, uncommitted, settled, ?_⟩
            show s.capability.unacknowledged = false
            rw [← Bool.not_eq_true]
            intro unacknowledged
            rcases watches.unacknowledged unacknowledged with lost | retryable | failed
            · exact kept lost
            · exact notRetryable retryable
            · exact failed noFailure

/-- A statement that ends in the rollback of the transaction. -/
theorem Inv.rolledBack (h : Counted s) (before : s.tx ≠ .committed) {phase : Phase Value}
    (stage : ∀ ended : State Value, ended.tx ≠ .committed → StageAt ended phase) :
    Inv { s.affect .rollsBack with phase } :=
  ⟨h.affect .rollsBack, stage _ (affect_ne_committed before rollsBack_ne_commits)⟩

theorem Inv.reply (h : Inv s) {reply : Reply} (step : s.reply reply = some next) : Inv next := by
  have stage := h.stage
  have counted := h.counted
  cases phase : s.phase <;> rw [phase] at stage <;> simp only [State.reply, phase] at step
  case cleaning =>
    cases reply <;> obtain rfl := Option.some.inj step <;> exact ⟨counted, stage⟩
  case beginning =>
    cases reply with
    | expected =>
      obtain rfl := Option.some.inj step
      unfold Counted at counted
      rw [if_neg stage] at counted
      exact ⟨counted, rfl⟩
    | rollbackTag =>
      obtain rfl := Option.some.inj step
      exact ⟨counted, stage, rfl⟩
    | retryable =>
      obtain rfl := Option.some.inj step
      exact ⟨counted, stage, rfl⟩
    | failed tookEffect =>
      obtain rfl := Option.some.inj step
      exact ⟨counted, stage, rfl⟩
  case rollingBack after =>
    cases reply with
    | expected =>
      obtain rfl := Option.some.inj step
      exact Inv.rolledBack counted stage.1 fun _ uncommitted => ⟨uncommitted, stage.2⟩
    | rollbackTag =>
      obtain rfl := Option.some.inj step
      exact ⟨counted, trivial⟩
    | retryable =>
      obtain rfl := Option.some.inj step
      exact ⟨counted, trivial⟩
    | failed tookEffect =>
      obtain rfl := Option.some.inj step
      exact ⟨counted, trivial⟩
  case settingDurable value =>
    cases reply with
    | expected =>
      obtain rfl := Option.some.inj step
      exact ⟨counted, { stage with }⟩
    | rollbackTag =>
      obtain rfl := Option.some.inj step
      exact ⟨counted, trivial⟩
    | retryable =>
      obtain rfl := Option.some.inj step
      exact Inv.rolledBack counted stage.uncommitted fun _ uncommitted => ⟨uncommitted, trivial⟩
    | failed tookEffect =>
      obtain rfl := Option.some.inj step
      exact ⟨counted, trivial⟩
  case checkingDurable value =>
    cases reply with
    | expected =>
      dsimp only at step
      split at step
      · obtain rfl := Option.some.inj step
        exact ⟨counted, { stage with }⟩
      · cases step
    | rollbackTag =>
      obtain rfl := Option.some.inj step
      exact ⟨counted, trivial⟩
    | retryable =>
      obtain rfl := Option.some.inj step
      exact Inv.rolledBack counted stage.uncommitted fun _ uncommitted => ⟨uncommitted, trivial⟩
    | failed tookEffect =>
      obtain rfl := Option.some.inj step
      exact ⟨counted, trivial⟩
  case committing value =>
    cases reply with
    | expected =>
      dsimp only at step
      split at step
      · rename_i live
        obtain rfl := Option.some.inj step
        have ended : (s.affect .commits).tx = .committed := by
          show s.tx.after .commits = .committed
          rw [live]
          rfl
        exact ⟨counted.affect .commits, ended, _, rfl, ended, stage.settlement, stage.acknowledged⟩
      · cases step
    | rollbackTag =>
      obtain rfl := Option.some.inj step
      exact Inv.rolledBack counted stage.uncommitted fun _ uncommitted => ⟨uncommitted, rfl⟩
    | retryable =>
      obtain rfl := Option.some.inj step
      exact Inv.rolledBack counted stage.uncommitted fun _ uncommitted => ⟨uncommitted, trivial⟩
    | failed tookEffect =>
      obtain rfl := Option.some.inj step
      exact ⟨counted.affect _, trivial⟩
  case resetting commitState after =>
    have failed : StageAt s (.abandoning false (.rejected .clientResetFailed commitState)) := by
      cases commitState with
      | notCommitted => exact stage.1
      | uncertain => exact trivial
      | committed => exact stage.1
    cases reply with
    | expected =>
      obtain rfl := Option.some.inj step
      refine ⟨counted, ?_⟩
      cases commitState <;> exact stage
    | rollbackTag =>
      obtain rfl := Option.some.inj step
      exact ⟨counted, by cases commitState <;> exact failed⟩
    | retryable =>
      obtain rfl := Option.some.inj step
      exact ⟨counted, by cases commitState <;> exact failed⟩
    | failed tookEffect =>
      obtain rfl := Option.some.inj step
      exact ⟨counted, by cases commitState <;> exact failed⟩
  case abandoning rollbackCanBeSubmitted outcome =>
    cases rollbackCanBeSubmitted with
    | false => cases step
    | true =>
      obtain rfl := Option.some.inj step
      refine ⟨counted.affect _, Tells.affect stage ?_⟩
      split <;> intro never <;> cases never
  all_goals cases step

theorem Inv.timestamp (h : Inv s) {reply : TimestampReply} (step : s.timestamp reply = some next) : Inv next := by
  have stage := h.stage
  cases phase : s.phase <;> rw [phase] at stage <;> simp only [State.timestamp, phase] at step
  case timestamping =>
    have live : s.tx = .live := stage
    have uncommitted : s.tx ≠ .committed := by
      rw [live]
      intro never
      cases never
    cases reply with
    | expected =>
      obtain rfl := Option.some.inj step
      exact ⟨h.counted, watches_create s.attempt live⟩
    | malformedTimestamp =>
      obtain rfl := Option.some.inj step
      exact ⟨h.counted, uncommitted, rfl⟩
    | malformedId =>
      obtain rfl := Option.some.inj step
      exact ⟨h.counted, uncommitted, rfl⟩
    | failed =>
      obtain rfl := Option.some.inj step
      exact ⟨h.counted, uncommitted, rfl⟩
  all_goals cases step

/-- While operations are executed, the capability watches the transaction. -/
theorem Inv.watches (h : Inv s) (isOpen : s.isOpen = true) : Watches s.tx s.capability := by
  have stage := h.stage
  unfold State.isOpen at isOpen
  split at isOpen
  · rename_i phase
    rw [phase] at stage
    exact stage
  · rename_i settlement queryPending phase
    rw [phase] at stage
    exact stage.1
  · cases isOpen

/-- An operation that goes on. -/
theorem Inv.operation (h : Inv s) (isOpen : s.isOpen = true) {effect : Effect} {capability : Capability}
    (watches : Watches (s.tx.after effect) capability) : Inv { s.affect effect with capability } := by
  refine ⟨h.counted.affect effect, ?_⟩
  have stage := h.stage
  show StageAt _ s.phase
  unfold State.isOpen at isOpen
  split at isOpen
  · rename_i phase
    rw [phase]
    exact watches
  · rename_i settlement queryPending phase
    rw [phase] at stage ⊢
    exact ⟨watches, stage.2⟩
  · cases isOpen

theorem Tx.after_none (tx : Tx) : tx.after .none = tx := by cases tx <;> rfl

theorem affect_none (s : State Value) : s.affect .none = s := by
  unfold State.affect
  rw [Tx.after_none, if_neg]
  rintro ⟨-, never⟩
  cases never

theorem Inv.step (h : Inv s) {event : Event Value} (trusted : Trusted s event) (step : s.step event = some next) :
    Inv next := by
  have stage := h.stage
  cases event with
  | connect ok =>
    simp only [State.step] at step
    split at step
    · rename_i phase
      rw [phase] at stage
      split at step
      · obtain rfl := Option.some.inj step
        exact ⟨h.counted, stage⟩
      · obtain rfl := Option.some.inj step
        exact ⟨h.counted, stage⟩
    · cases step
  | reply reply => exact h.reply step
  | timestamp reply => exact h.timestamp step
  | issue validArgs =>
    simp only [State.step] at step
    split at step
    · rename_i isOpen
      obtain rfl := Option.some.inj step
      have watches := (h.watches isOpen).issue validArgs
      rw [← Tx.after_none s.tx] at watches
      have issued := h.operation isOpen watches
      rwa [affect_none] at issued
    · obtain rfl := Option.some.inj step
      exact h
  | start =>
    obtain ⟨capability, started, step⟩ := Option.bind_eq_some_iff.mp step
    split at step
    · rename_i isOpen
      obtain rfl := Option.some.inj step
      have watches := (h.watches isOpen).start started
      rw [← Tx.after_none s.tx] at watches
      have goesOn := h.operation isOpen watches
      rwa [affect_none] at goesOn
    · cases step
  | answer answer =>
    simp only [State.step] at step
    split at step
    · rename_i ready
      obtain ⟨isOpen, querying⟩ := ready
      obtain rfl := Option.some.inj step
      exact h.operation isOpen ((h.watches isOpen).answer querying answer)
    · cases step
  | recheck recheck =>
    simp only [State.step] at step
    split at step
    · rename_i failure isOpen rechecking
      split at step
      · cases step
      · rename_i truthful
        obtain rfl := Option.some.inj step
        refine h.operation isOpen ((h.watches isOpen).recheck rechecking recheck ?_ ?_)
        · intro same
          by_contra other
          exact truthful ⟨same, other⟩
        · rintro rfl ended
          exact trusted ended rfl
    · cases step
  | settle settlement =>
    simp only [State.step] at step
    split at step
    · rename_i phase
      rw [phase] at stage
      obtain rfl := Option.some.inj step
      exact ⟨h.counted, ⟨stage.committed, stage.retryable, stage.unacknowledged, stage.terminal⟩, rfl⟩
    · cases step
  | close =>
    simp only [State.step] at step
    split at step
    · rename_i settlement queryPending phase
      rw [phase] at stage
      split at step
      · cases step
      · rename_i drained
        obtain rfl := Option.some.inj step
        exact Inv.close h.counted stage.1 stage.2 (Bool.not_eq_true _ ▸ drained)
    · cases step
  | release ok =>
    simp only [State.step] at step
    split at step
    · rename_i commitState after phase
      rw [phase] at stage
      split at step
      · obtain rfl := Option.some.inj step
        exact Inv.goOn h.counted stage
      · obtain rfl := Option.some.inj step
        refine ⟨h.counted, ?_⟩
        cases commitState with
        | notCommitted => exact stage.1
        | uncertain => exact trivial
        | committed => exact stage.1
    · rename_i outcome phase
      rw [phase] at stage
      obtain rfl := Option.some.inj step
      exact ⟨h.counted, stage⟩
    · cases step

end Attempts

theorem inv_of_run {maxTransactionAttempts : Nat} {trace : List (Event Value)} {s : State Value}
    (run : Traces.Run (trustedRuns Value maxTransactionAttempts) trace s) : Inv s := by
  refine @Traces.Run.invariant _ _ _ (fun _ s => Inv s) ?_ ?_ _ _ run
  · rintro _ rfl
    exact inv_initial maxTransactionAttempts
  · rintro _ _ _ _ h ⟨event, step, trusted, -⟩
    exact h.step trusted step

/-! ### The laws -/

theorem Counted.eq_of_committed {s : State Value} (h : Counted s) (ended : s.tx = .committed) :
    s.committed = [s.attempt] := by
  unfold Counted at h
  rwa [if_pos ended] at h

theorem Counted.eq_of_uncommitted {s : State Value} (h : Counted s) (uncommitted : s.tx ≠ .committed) :
    s.committed = [] := by
  unfold Counted at h
  rwa [if_neg uncommitted] at h

theorem runLaws {maxTransactionAttempts : Nat} {trace : List (Event Value)} {s : State Value}
    (run : Traces.Run (trustedRuns Value maxTransactionAttempts) trace s) : RunLaws s := by
  have inv := inv_of_run run
  constructor
  · by_cases ended : s.tx = .committed
    · exact .inr (inv.counted.eq_of_committed ended)
    · exact .inl (inv.counted.eq_of_uncommitted ended)
  · intro outcome phase
    have tells := inv.stage
    rw [phase] at tells
    constructor
    · rintro value rfl
      exact ⟨inv.counted.eq_of_committed tells.1, tells.2⟩
    · rintro code rfl
      exact inv.counted.eq_of_uncommitted tells
    · rintro code rfl
      exact inv.counted.eq_of_committed tells
    · rintro error rfl
      exact inv.counted.eq_of_uncommitted tells

/-! ### Runs -/

def runEvents (s : State Value) (events : List (Event Value)) : Option (State Value) := events.foldlM State.step s

theorem run_of_runEvents {maxTransactionAttempts : Nat} {events : List (Event Value)} {s : State Value}
    (h : runEvents (.initial maxTransactionAttempts) events = some s) :
    Traces.Run (runSerializable Value maxTransactionAttempts) events s := by
  have first : Traces.Run (runSerializable Value maxTransactionAttempts) [] (.initial maxTransactionAttempts) := .start rfl
  exact first.foldlM (fun event _ _ _ step => ⟨event, step, rfl⟩) h

/-- Where no recheck is answered by a retryable SQLSTATE, a run is trusted. -/
theorem trusted_of_run {maxTransactionAttempts : Nat} {events : List (Event Value)} {s : State Value}
    (run : Traces.Run (runSerializable Value maxTransactionAttempts) events s)
    (none : Event.recheck .retryable ∉ events) : Traces.Run (trustedRuns Value maxTransactionAttempts) events s := by
  induction run with
  | start first => exact .start first
  | step _ taken ih =>
      obtain ⟨event, step, rfl⟩ := taken
      rw [List.mem_append, not_or, List.mem_singleton] at none
      exact .step (ih none.1) ⟨event, step, fun _ same => none.2 same.symm, rfl⟩

/-- An attempt up to the start of its callback. -/
def startEvents : List (Event Nat) := [.connect true, .reply .expected, .reply .expected, .timestamp .expected]

/-- A callback with one query, and its commit. -/
def firstCommitEvents : List (Event Nat) :=
  startEvents ++ [.issue true, .start, .answer (.ok .none none), .recheck .same, .settle (.returned 7), .close,
    .reply .expected, .reply .expected, .reply .expected, .reply .expected, .release true]

/-- A callback whose query is `COMMIT`, with a recheck that fails by a serialization failure; then the
callback is applied again. -/
def secondApplicationEvents : List (Event Nat) :=
  startEvents ++ [.issue true, .start, .answer (.ok .commits none), .recheck .retryable, .settle (.returned 7),
    .close, .release true] ++ firstCommitEvents

theorem runLaws_firstCommit : ∃ s, runEvents (.initial 2) firstCommitEvents = some s ∧
    s.phase = .finished (.fulfilled 7) ∧ s.committed = [s.attempt] := by
  obtain ⟨s, ran⟩ : ∃ s, runEvents (.initial 2) firstCommitEvents = some s := ⟨_, rfl⟩
  have phase : s.phase = .finished (.fulfilled 7) := by
    obtain rfl := Option.some.inj ran
    rfl
  have laws := runLaws (trusted_of_run (run_of_runEvents ran) (by decide))
  exact ⟨s, ran, phase, ((laws.honest _ phase).fulfilled 7 rfl).1⟩

theorem applied_twice : ¬ ∀ maxTransactionAttempts trace (s : State Nat),
    Traces.Run (runSerializable Nat maxTransactionAttempts) trace s → RunLaws s := by
  intro laws
  obtain ⟨s, ran⟩ : ∃ s, runEvents (.initial 2) secondApplicationEvents = some s := ⟨_, rfl⟩
  have committed : s.committed = [2, 1] := by
    obtain rfl := Option.some.inj ran
    rfl
  rcases (laws 2 _ s (run_of_runEvents ran)).once with none | one
  · rw [committed] at none
    cases none
  · rw [committed] at one
    exact absurd (congrArg List.length one) (show ¬ 2 = 1 by decide)

end PortableCodex.SerializableStore
