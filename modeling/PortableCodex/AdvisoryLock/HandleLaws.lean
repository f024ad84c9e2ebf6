import PortableCodex.AdvisoryLock.Handle

/-!
What the promises of an advisory lock handle say, in every run.

`Inv` is the invariant: a pending command belongs to a call that is still open, a settled call is done,
and what its promise says is borne out by the holder. `Frozen` is what the unavailable handle keeps:
nothing is written to the holder, and no later call is fulfilled.
-/

namespace PortableCodex.AdvisoryLock

open Js ProviderState

/-! ### Promises and the holder -/

namespace Holder

variable (holder : Holder)

/-- The command of a call was performed, with the rename that was asked for. -/
def Performed (c : CallId) (rename : Rename) : Prop :=
  ∃ command ∈ holder.written, command.call = c ∧ command.rename = rename ∧ command.id ∈ holder.performed

/-- A call has no command but one that the holder answered without performing it. -/
def Refused (c : CallId) : Prop :=
  ∀ command ∈ holder.written, command.call = c → ∃ answer, (command.id, answer) ∈ holder.answers ∧ answer ≠ .ok

/-- What a settled promise has to be borne out by. -/
def Justifies (kind : Option CallKind) (c : CallId) : Outcome → Prop
  | .fulfilled => kind = some .assertHeld ∨ ∃ rename, kind = some (.rename rename) ∧ holder.Performed c rename
  | .rejected error => error.renameOutcome = some .notCommitted → holder.Refused c
  | .threw => True

end Holder

namespace Handle

variable (s : Handle)

def kindOf (c : CallId) : Option CallKind := (s.calls c).map (·.kind)

def stateOf (c : CallId) : Option CallState := (s.calls c).map (·.state)

/-- A call that has a promise to settle and no command that is pending. -/
structure Open (c : CallId) : Prop where
  live : ∃ state, s.stateOf c = some state ∧ state ≠ .done
  notPending : c ∉ s.pendingCommands.map Prod.snd

@[simp] theorem kindOf_moveTo (c other : CallId) (state : CallState) :
    (s.moveTo c state).kindOf other = s.kindOf other := by
  by_cases same : other = c
  · subst same
    simp only [kindOf, moveTo, Function.update_self, Option.map_map, Function.comp_def]
  · simp only [kindOf, moveTo, Function.update_of_ne same]

theorem stateOf_moveTo_of_ne {c other : CallId} (ne : other ≠ c) (state : CallState) :
    (s.moveTo c state).stateOf other = s.stateOf other := by
  simp only [stateOf, moveTo, Function.update_of_ne ne]

theorem stateOf_moveTo_self {c : CallId} {before : CallState} (found : s.stateOf c = some before)
    (state : CallState) : (s.moveTo c state).stateOf c = some state := by
  obtain ⟨call, called, -⟩ := Option.map_eq_some_iff.mp found
  simp only [stateOf, moveTo, Function.update_self, called, Option.map_some]

/-- A call that has moved is in the state it has moved to. -/
theorem stateOf_moveTo_cases {c other : CallId} {state found : CallState}
    (h : (s.moveTo c state).stateOf other = some found) :
    other = c ∧ found = state ∨ other ≠ c ∧ s.stateOf other = some found := by
  by_cases same : other = c
  · subst same
    simp only [stateOf, moveTo, Function.update_self, Option.map_map, Option.map_eq_some_iff,
      Function.comp_apply] at h
    obtain ⟨_, -, rfl⟩ := h
    exact .inl ⟨rfl, rfl⟩
  · rw [s.stateOf_moveTo_of_ne same] at h
    exact .inr ⟨same, h⟩

/-- A new call changes no other. -/
theorem newCall_of_ne {c : CallId} (ne : c ≠ s.nextCall) (kind : CallKind) :
    (s.newCall kind).stateOf c = s.stateOf c ∧ (s.newCall kind).kindOf c = s.kindOf c := by
  simp only [stateOf, kindOf, newCall, Function.update_of_ne ne, and_self]

end Handle

/-! ### The invariant -/

/-- What quiescence keeps of itself. -/
structure Quiescence.Ok (q : Quiescence) : Prop where
  begun : q.quiescenceInFlight ≠ none → q.unavailable = true
  lossUnavailable : q.lossSettled = true → q.unavailable = true
  settled : q.results ≠ [] → q.lossSettled = true

structure Inv (s : Handle) : Prop where
  quiescence : s.quiescence.Ok
  lossPending : s.quiescence.lossSettled = true → s.pendingCommands = []
  timers : s.timers = s.pendingCommands
  notStarted : ∀ c, s.nextCall ≤ c → s.calls c = none
  pendingSent : ∀ entry ∈ s.pendingCommands, s.stateOf entry.2 = some (.sent entry.1)
  pendingWritten : ∀ entry ∈ s.pendingCommands,
    ∃ command ∈ s.holder.written, command.id = entry.1 ∧ command.call = entry.2
  pendingOnce : (s.pendingCommands.map Prod.snd).Nodup
  commandIds : ∀ command ∈ s.holder.written, command.id < s.nextCommandId
  commandOnce : (s.holder.written.map (·.id)).Nodup
  commandCalls : (s.holder.written.map (·.call)).Nodup
  commandKind : ∀ command ∈ s.holder.written, s.kindOf command.call = some (.rename command.rename)
  commandState : ∀ command ∈ s.holder.written, s.stateOf command.call ≠ some .checking
  rejecting : ∀ c awaited error, s.stateOf c = some (.rejecting awaited error) →
    error.renameOutcome = some .notCommitted → s.holder.Refused c
  settledDone : ∀ entry ∈ s.settlements, s.stateOf entry.1 = some .done
  justified : ∀ entry ∈ s.settlements, s.holder.Justifies (s.kindOf entry.1) entry.1 entry.2
  settledOnce : (s.settlements.map Prod.fst).Nodup
  answered : ∀ entry ∈ s.holder.answers, entry.2 = .ok ↔ entry.1 ∈ s.holder.performed

theorem inv_acquired : Inv Handle.acquired where
  quiescence := ⟨fun h => absurd rfl h, (by intro h; cases h), fun h => absurd rfl h⟩
  lossPending _ := rfl
  timers := rfl
  notStarted _ _ := rfl
  pendingSent entry inside := by cases inside
  pendingWritten entry inside := by cases inside
  pendingOnce := List.nodup_nil
  commandIds command inside := by cases inside
  commandOnce := List.nodup_nil
  commandCalls := List.nodup_nil
  commandKind command inside := by cases inside
  commandState command inside := by cases inside
  rejecting c awaited error h := by cases h
  settledDone entry inside := by cases inside
  justified entry inside := by cases inside
  settledOnce := List.nodup_nil
  answered entry inside := by cases inside

/-! ### Quiescence -/

namespace Quiescence

variable {q : Quiescence}

/-- Beginning quiescence makes the handle unavailable and settles nothing. -/
theorem beginQuiescence_spec (q : Quiescence) (reason : Reason) (retry : Bool) :
    (q.beginQuiescence reason retry).1.unavailable = true ∧
      (q.beginQuiescence reason retry).1.lossSettled = q.lossSettled ∧
      (q.beginQuiescence reason retry).1.results = q.results := by
  unfold beginQuiescence
  dsimp only
  split
  · exact ⟨rfl, rfl, rfl⟩
  · split
    · exact ⟨rfl, rfl, rfl⟩
    · split
      · exact ⟨rfl, rfl, rfl⟩
      · exact ⟨rfl, rfl, rfl⟩

theorem Ok.beginQuiescence (h : q.Ok) (reason : Reason) (retry : Bool) : (q.beginQuiescence reason retry).1.Ok := by
  obtain ⟨unavailable, loss, results⟩ := q.beginQuiescence_spec reason retry
  refine ⟨fun _ => unavailable, fun _ => unavailable, fun some => ?_⟩
  rw [loss]
  exact h.settled (results ▸ some)

end Quiescence

/-! ### Steps keep the invariant -/

section Steps

variable {s : Handle}

theorem Inv.withQuiescence (h : Inv s) {q : Quiescence} (ok : q.Ok)
    (pending : q.lossSettled = true → s.pendingCommands = []) : Inv (s.withQuiescence q) :=
  { h with quiescence := ok, lossPending := pending }

theorem Inv.beginQuiescence (h : Inv s) (reason : Reason) (retry : Bool) :
    Inv (s.beginQuiescence reason retry).1 := by
  obtain ⟨-, loss, -⟩ := s.quiescence.beginQuiescence_spec reason retry
  exact h.withQuiescence (h.quiescence.beginQuiescence reason retry) fun settled => h.lossPending (loss ▸ settled)

theorem Inv.moveTo (h : Inv s) {c : CallId} {state : CallState} (isOpen : s.Open c)
    (notChecking : state ≠ .checking)
    (refused : ∀ awaited error, state = .rejecting awaited error →
      error.renameOutcome = some .notCommitted → s.holder.Refused c) : Inv (s.moveTo c state) where
  quiescence := h.quiescence
  lossPending := h.lossPending
  timers := h.timers
  notStarted other late := by
    have absent := h.notStarted other late
    by_cases same : other = c
    · subst same
      simp only [Handle.moveTo, Function.update_self, absent, Option.map_none]
    · simp only [Handle.moveTo, Function.update_of_ne same, absent]
  pendingSent entry inside := by
    have ne : entry.2 ≠ c := fun same => isOpen.notPending (same ▸ List.mem_map_of_mem inside)
    rw [s.stateOf_moveTo_of_ne ne]
    exact h.pendingSent entry inside
  pendingWritten := h.pendingWritten
  pendingOnce := h.pendingOnce
  commandIds := h.commandIds
  commandOnce := h.commandOnce
  commandCalls := h.commandCalls
  commandKind command inside := by
    rw [Handle.kindOf_moveTo]
    exact h.commandKind command inside
  commandState command inside checking := by
    rcases s.stateOf_moveTo_cases checking with ⟨-, same⟩ | ⟨-, before⟩
    · exact notChecking same.symm
    · exact h.commandState command inside before
  rejecting other awaited error found := by
    rcases s.stateOf_moveTo_cases found with ⟨rfl, same⟩ | ⟨-, before⟩
    · exact refused awaited error same.symm
    · exact h.rejecting other awaited error before
  settledDone entry inside := by
    have done := h.settledDone entry inside
    obtain ⟨before, found, live⟩ := isOpen.live
    have ne : entry.1 ≠ c := by
      intro same
      rw [same, found] at done
      exact live (Option.some.inj done)
    rw [s.stateOf_moveTo_of_ne ne]
    exact done
  justified entry inside := by
    rw [Handle.kindOf_moveTo]
    exact h.justified entry inside
  settledOnce := h.settledOnce
  answered := h.answered

/-- An open call is settled with what the holder bears out. -/
theorem Inv.settle (h : Inv s) {c : CallId} {outcome : Outcome} (isOpen : s.Open c)
    (justified : s.holder.Justifies (s.kindOf c) c outcome) : Inv (s.settle c outcome) := by
  obtain ⟨before, found, live⟩ := isOpen.live
  have unsettled : c ∉ s.settlements.map Prod.fst := by
    intro settled
    obtain ⟨entry, inside, same⟩ := List.mem_map.mp settled
    have done := h.settledDone entry inside
    rw [same, found] at done
    exact live (Option.some.inj done)
  have moved : Inv (s.moveTo c .done) :=
    h.moveTo isOpen (fun same => by cases same) fun _ _ same => by cases same
  have done : (s.moveTo c .done).stateOf c = some .done := s.stateOf_moveTo_self found _
  refine { moved with settledDone := ?_, justified := ?_, settledOnce := ?_ }
  · intro entry inside
    rcases List.mem_append.mp inside with earlier | last
    · exact moved.settledDone entry earlier
    · obtain rfl := List.mem_singleton.mp last
      exact done
  · intro entry inside
    rcases List.mem_append.mp inside with earlier | last
    · exact moved.justified entry earlier
    · obtain rfl := List.mem_singleton.mp last
      show s.holder.Justifies ((s.moveTo c .done).kindOf c) c outcome
      rw [Handle.kindOf_moveTo]
      exact justified
  · show ((s.settlements ++ [(c, outcome)]).map Prod.fst).Nodup
    rw [List.map_append, List.nodup_append]
    refine ⟨h.settledOnce, List.nodup_singleton _, ?_⟩
    intro a inside b last
    obtain rfl := List.mem_singleton.mp last
    rintro rfl
    exact unsettled inside

theorem Inv.removePending (h : Inv s) (id : CommandId) : Inv (s.removePending id) where
  quiescence := h.quiescence
  lossPending settled := by
    show s.pendingCommands.filter _ = []
    rw [h.lossPending settled, List.filter_nil]
  timers := by
    show s.timers.filter _ = s.pendingCommands.filter _
    rw [h.timers]
  notStarted := h.notStarted
  pendingSent entry inside := h.pendingSent entry (List.mem_of_mem_filter inside)
  pendingWritten entry inside := h.pendingWritten entry (List.mem_of_mem_filter inside)
  pendingOnce := h.pendingOnce.sublist (List.filter_sublist.map _)
  commandIds := h.commandIds
  commandOnce := h.commandOnce
  commandCalls := h.commandCalls
  commandKind := h.commandKind
  commandState := h.commandState
  rejecting := h.rejecting
  settledDone := h.settledDone
  justified := h.justified
  settledOnce := h.settledOnce
  answered := h.answered

/-- The call of a pending command is open once the command is removed. -/
theorem Inv.open_of_pending (h : Inv s) {id : CommandId} {c : CallId} (inside : (id, c) ∈ s.pendingCommands) :
    (s.removePending id).Open c where
  live := ⟨.sent id, h.pendingSent _ inside, fun same => by cases same⟩
  notPending := by
    intro pending
    obtain ⟨⟨other, call⟩, kept, same⟩ := List.mem_map.mp pending
    dsimp only at same
    subst same
    obtain ⟨stillInside, ne⟩ := List.mem_filter.mp kept
    have this := h.pendingSent _ stillInside
    rw [h.pendingSent _ inside, Option.some.injEq, CallState.sent.injEq] at this
    exact absurd this.symm (of_decide_eq_true ne)

theorem Inv.newCall (h : Inv s) (kind : CallKind) : Inv (s.newCall kind) := by
  have absent : s.calls s.nextCall = none := h.notStarted _ le_rfl
  have ne_of_state {c : CallId} {found : CallState} (called : s.stateOf c = some found) : c ≠ s.nextCall := by
    rintro rfl
    rw [Handle.stateOf, absent] at called
    cases called
  have ne_of_kind {c : CallId} {found : CallKind} (called : s.kindOf c = some found) : c ≠ s.nextCall := by
    rintro rfl
    rw [Handle.kindOf, absent] at called
    cases called
  have state {c : CallId} {found : CallState} (called : s.stateOf c = some found) :
      (s.newCall kind).stateOf c = some found := by
    rw [(s.newCall_of_ne (ne_of_state called) kind).1, called]
  exact {
    h with
    notStarted := by
      intro c late
      have ne : c ≠ s.nextCall := Nat.ne_of_gt late
      simp only [Handle.newCall, Function.update_of_ne ne]
      exact h.notStarted c (Nat.le_of_succ_le late)
    pendingSent := fun entry inside => state (h.pendingSent entry inside)
    commandKind := by
      intro command inside
      rw [(s.newCall_of_ne (ne_of_kind (h.commandKind command inside)) kind).2]
      exact h.commandKind command inside
    commandState := by
      intro command inside
      rw [(s.newCall_of_ne (ne_of_kind (h.commandKind command inside)) kind).1]
      exact h.commandState command inside
    rejecting := by
      intro c awaited error found
      by_cases same : c = s.nextCall
      · subst same
        simp only [Handle.stateOf, Handle.newCall, Function.update_self, Option.map_some] at found
        cases found
      · rw [(s.newCall_of_ne same kind).1] at found
        exact h.rejecting c awaited error found
    settledDone := fun entry inside => state (h.settledDone entry inside)
    justified := by
      intro entry inside
      rw [(s.newCall_of_ne (ne_of_state (h.settledDone entry inside)) kind).2]
      exact h.justified entry inside }

/-- What was borne out stays so when a command of another call is written. -/
theorem Holder.Justifies.written {holder : Holder} {kind : Option CallKind} {c : CallId} {outcome : Outcome}
    (h : holder.Justifies kind c outcome) {command : Command} (ne : command.call ≠ c) :
    ({ holder with written := holder.written ++ [command] } : Holder).Justifies kind c outcome := by
  cases outcome with
  | fulfilled =>
      refine h.imp_right ?_
      rintro ⟨rename, is, own, inside, rest⟩
      exact ⟨rename, is, own, List.mem_append_left _ inside, rest⟩
  | rejected error =>
      intro notCommitted own inside same
      rcases List.mem_append.mp inside with earlier | last
      · exact h notCommitted own earlier same
      · obtain rfl := List.mem_singleton.mp last
        exact absurd same ne
  | threw => trivial

/-- The available handle writes the command of a call that was checking. -/
theorem Inv.send (h : Inv s) {c : CallId} {rename : Rename} (available : s.quiescence.unavailable = false)
    (kind : s.kindOf c = some (.rename rename)) (state : s.stateOf c = some .checking) :
    Inv (s.send c rename) := by
  let command : Command := { id := s.nextCommandId, call := c, rename }
  have moved : (s.send c rename).stateOf c = some (.sent s.nextCommandId) :=
    Handle.stateOf_moveTo_self _ state _
  have others {other : CallId} (ne : other ≠ c) : (s.send c rename).stateOf other = s.stateOf other :=
    Handle.stateOf_moveTo_of_ne _ ne _
  have kinds (other : CallId) : (s.send c rename).kindOf other = s.kindOf other := Handle.kindOf_moveTo _ _ _ _
  have unsent (entry : CommandId × CallId) (inside : entry ∈ s.pendingCommands) : entry.2 ≠ c := by
    intro same
    have sent := h.pendingSent entry inside
    rw [same, state] at sent
    cases sent
  have unwritten (own : Command) (inside : own ∈ s.holder.written) : own.call ≠ c := by
    intro same
    have checking := h.commandState own inside
    rw [same] at checking
    exact checking state
  exact {
    quiescence := h.quiescence
    lossPending := by
      intro settled
      have this := h.quiescence.lossUnavailable settled
      rw [available] at this
      cases this
    timers := congrArg (· ++ [(s.nextCommandId, c)]) h.timers
    notStarted := by
      intro other late
      have ne : other ≠ c := by
        rintro rfl
        rw [Handle.stateOf, h.notStarted other late] at state
        cases state
      have absent := h.notStarted other late
      simp only [Handle.send, Handle.moveTo, Function.update_of_ne ne, absent]
    pendingSent := by
      intro entry inside
      rcases List.mem_append.mp inside with earlier | last
      · rw [others (unsent entry earlier)]
        exact h.pendingSent entry earlier
      · obtain rfl := List.mem_singleton.mp last
        exact moved
    pendingWritten := by
      intro entry inside
      rcases List.mem_append.mp inside with earlier | last
      · obtain ⟨own, written, rest⟩ := h.pendingWritten entry earlier
        exact ⟨own, List.mem_append_left _ written, rest⟩
      · obtain rfl := List.mem_singleton.mp last
        exact ⟨command, List.mem_append_right _ (List.mem_singleton_self _), rfl, rfl⟩
    pendingOnce := by
      show ((s.pendingCommands ++ [(s.nextCommandId, c)]).map Prod.snd).Nodup
      rw [List.map_append, List.nodup_append]
      refine ⟨h.pendingOnce, List.nodup_singleton _, ?_⟩
      intro a inside b last
      obtain ⟨entry, pending, rfl⟩ := List.mem_map.mp inside
      obtain rfl := List.mem_singleton.mp last
      exact unsent entry pending
    commandIds := by
      intro own inside
      rcases List.mem_append.mp inside with earlier | last
      · exact Nat.lt_succ_of_lt (h.commandIds own earlier)
      · obtain rfl := List.mem_singleton.mp last
        exact Nat.lt_succ_self _
    commandOnce := by
      show ((s.holder.written ++ [command]).map (·.id)).Nodup
      rw [List.map_append, List.nodup_append]
      refine ⟨h.commandOnce, List.nodup_singleton _, ?_⟩
      intro a inside b last
      obtain ⟨own, written, rfl⟩ := List.mem_map.mp inside
      obtain rfl := List.mem_singleton.mp last
      exact Nat.ne_of_lt (h.commandIds own written)
    commandCalls := by
      show ((s.holder.written ++ [command]).map (·.call)).Nodup
      rw [List.map_append, List.nodup_append]
      refine ⟨h.commandCalls, List.nodup_singleton _, ?_⟩
      intro a inside b last
      obtain ⟨own, written, rfl⟩ := List.mem_map.mp inside
      obtain rfl := List.mem_singleton.mp last
      exact unwritten own written
    commandKind := by
      intro own inside
      rw [kinds]
      rcases List.mem_append.mp inside with earlier | last
      · exact h.commandKind own earlier
      · obtain rfl := List.mem_singleton.mp last
        exact kind
    commandState := by
      intro own inside
      rcases List.mem_append.mp inside with earlier | last
      · rw [others (unwritten own earlier)]
        exact h.commandState own earlier
      · obtain rfl := List.mem_singleton.mp last
        rw [moved]
        exact fun same => by cases same
    rejecting := by
      intro other awaited error found notCommitted
      have ne : other ≠ c := by
        rintro rfl
        rw [moved] at found
        cases found
      rw [others ne] at found
      have refused : s.holder.Justifies none other (.rejected error) := h.rejecting other awaited error found
      exact refused.written ne.symm notCommitted
    settledDone := by
      intro entry inside
      have done := h.settledDone entry inside
      have ne : entry.1 ≠ c := by
        intro same
        rw [same, state] at done
        cases done
      rw [others ne]
      exact done
    justified := by
      intro entry inside
      have done := h.settledDone entry inside
      have ne : entry.1 ≠ c := by
        intro same
        rw [same, state] at done
        cases done
      rw [kinds]
      exact (h.justified entry inside).written ne.symm
    settledOnce := h.settledOnce
    answered := h.answered }

/-- Rejecting pending calls one after the other. -/
theorem Inv.rejectAll {outcome : Outcome} (entries : List (CommandId × CallId))
    (once : (entries.map Prod.snd).Nodup) (h : Inv s)
    (isOpen : ∀ entry ∈ entries, s.Open entry.2)
    (justified : ∀ holder kind c, Holder.Justifies holder kind c outcome) :
    Inv (entries.foldl (fun s entry => s.settle entry.2 outcome) s) := by
  induction entries generalizing s with
  | nil => exact h
  | cons entry entries ih =>
      rw [List.map_cons, List.nodup_cons] at once
      have settled := h.settle (isOpen entry List.mem_cons_self) (justified s.holder _ _)
      refine ih once.2 settled ?_
      intro other inside
      have ne : other.2 ≠ entry.2 := fun same => once.1 (same ▸ List.mem_map_of_mem inside)
      obtain ⟨live, notPending⟩ := isOpen other (List.mem_cons_of_mem _ inside)
      refine ⟨?_, notPending⟩
      show ∃ state, (s.moveTo entry.2 .done).stateOf other.2 = some state ∧ state ≠ .done
      rw [s.stateOf_moveTo_of_ne ne]
      exact live

/-- An error without an outcome needs nothing to bear it out. -/
theorem justifies_uncertain (message : String) (cause : Option CleanupError) (holder : Holder)
    (kind : Option CallKind) (c : CallId) :
    holder.Justifies kind c (.rejected (withCause (uncertainCommit message) cause)) := by
  intro notCommitted
  cases notCommitted

theorem Inv.rejectPendingCommands (h : Inv s) (message : String) (cause : Option CleanupError) :
    Inv (s.rejectPendingCommands message cause) := by
  let cleared : Handle := { s with pendingCommands := [], timers := [] }
  have inv : Inv cleared := {
    h with
    lossPending := fun _ => rfl
    timers := rfl
    pendingSent := fun entry inside => by cases inside
    pendingWritten := fun entry inside => by cases inside
    pendingOnce := List.nodup_nil }
  refine Inv.rejectAll s.pendingCommands h.pendingOnce inv ?_ (justifies_uncertain message cause)
  intro entry inside
  exact ⟨⟨_, h.pendingSent entry inside, fun same => by cases same⟩, fun pending => by cases pending⟩

theorem rejectPendingCommands_frame (s : Handle) (message : String) (cause : Option CleanupError) :
    (s.rejectPendingCommands message cause).quiescence = s.quiescence ∧
      (s.rejectPendingCommands message cause).pendingCommands = [] ∧
      (s.rejectPendingCommands message cause).holder = s.holder := by
  have frame (entries : List (CommandId × CallId)) (s : Handle) (outcome : Outcome) :
      (entries.foldl (fun s entry => s.settle entry.2 outcome) s).quiescence = s.quiescence ∧
        (entries.foldl (fun s entry => s.settle entry.2 outcome) s).pendingCommands = s.pendingCommands ∧
        (entries.foldl (fun s entry => s.settle entry.2 outcome) s).holder = s.holder := by
    induction entries generalizing s with
    | nil => exact ⟨rfl, rfl, rfl⟩
    | cons entry entries ih => exact ih (s.settle entry.2 outcome)
  exact frame _ _ _

theorem rejectPendingCommands_withQuiescence (s : Handle) (q : Quiescence) (message : String)
    (cause : Option CleanupError) :
    (s.withQuiescence q).rejectPendingCommands message cause =
      (s.rejectPendingCommands message cause).withQuiescence q := by
  have commutes (entries : List (CommandId × CallId)) (s : Handle) (outcome : Outcome) :
      entries.foldl (fun s entry => s.settle entry.2 outcome) (s.withQuiescence q) =
        (entries.foldl (fun s entry => s.settle entry.2 outcome) s).withQuiescence q := by
    induction entries generalizing s with
    | nil => rfl
    | cons entry entries ih => exact ih (s.settle entry.2 outcome)
  exact commutes s.pendingCommands { s with pendingCommands := [], timers := [] } _

/-- The attempt that is over settles the loss and what is pending. -/
theorem Inv.closeReturned (h : Inv s) {next : Handle} {closeFails : Bool}
    (step : s.closeReturned closeFails = some next) : Inv next := by
  unfold Handle.closeReturned at step
  split at step
  · rename_i reason stopError disposalError inFlight
    obtain rfl := Option.some.inj step
    have unavailable : s.quiescence.unavailable = true := h.quiescence.begun (by rw [inFlight]; exact Option.some_ne_none _)
    unfold Handle.settleQuiescence
    dsimp only
    split
    · rename_i already
      exact h.withQuiescence ⟨fun _ => unavailable, fun _ => unavailable, fun _ => already⟩ h.lossPending
    · rw [rejectPendingCommands_withQuiescence, rejectPendingCommands_withQuiescence]
      refine (h.rejectPendingCommands _ _).withQuiescence
        ⟨fun _ => unavailable, fun _ => unavailable, fun _ => rfl⟩ fun _ => ?_
      exact (rejectPendingCommands_frame s _ _).2.1
  · cases step

theorem Inv.quiesceAndReject (h : Inv s) {c : CallId} (isOpen : s.Open c) (reason : Reason) {error : LockError}
    (refused : error.renameOutcome = some .notCommitted → s.holder.Refused c) :
    Inv (s.quiesceAndReject c reason error) := by
  have begun : Inv (s.beginQuiescence reason false).1 := h.beginQuiescence reason false
  refine begun.moveTo ⟨isOpen.live, isOpen.notPending⟩ (fun same => by cases same) ?_
  rintro _ _ same notCommitted
  cases same
  exact refused notCommitted

theorem Inv.observeLoss (h : Inv s) : Inv s.observeLoss.1 := by
  unfold Handle.observeLoss
  split
  · exact h.beginQuiescence .unexpectedLoss false
  · exact h

/-- Observing the loss changes quiescence only. -/
theorem observeLoss_frame (s : Handle) : ∃ q, s.observeLoss.1 = s.withQuiescence q ∧
    (s.quiescence.unavailable = true → q.unavailable = true) := by
  unfold Handle.observeLoss
  split
  · exact ⟨_, rfl, fun _ => (s.quiescence.beginQuiescence_spec _ _).1⟩
  · exact ⟨s.quiescence, rfl, id⟩

/-- A call that checks for loss rejects without an outcome, or goes on while the handle is available. -/
theorem Inv.whileHeld (h : Inv s) {c : CallId} (isOpen : s.Open c) {error : LockError}
    (noOutcome : error.renameOutcome = none) {goOn : Handle → Handle}
    (goes : ∀ q, Inv (s.withQuiescence q) → q.unavailable = false → Inv (goOn (s.withQuiescence q))) :
    Inv (s.whileHeld c error goOn) := by
  obtain ⟨q, same, -⟩ := observeLoss_frame s
  have inv := h.observeLoss
  unfold Handle.whileHeld
  dsimp only
  rw [same] at inv ⊢
  split
  · refine inv.moveTo ⟨isOpen.live, isOpen.notPending⟩ (fun same => by cases same) ?_
    rintro _ _ same notCommitted
    cases same
    rw [noOutcome] at notCommitted
    cases notCommitted
  · rename_i held
    refine goes q inv ?_
    by_contra unavailable
    rw [Bool.not_eq_false] at unavailable
    exact held (by simp only [Handle.lost, Handle.withQuiescence, unavailable, Bool.true_or])

theorem newCall_open (h : Inv s) (kind : CallKind) : (s.newCall kind).Open s.nextCall where
  live := ⟨.checking, by
    simp only [Handle.stateOf, Handle.newCall, Function.update_self, Option.map_some], fun same => by cases same⟩
  notPending := by
    intro pending
    obtain ⟨entry, inside, same⟩ := List.mem_map.mp pending
    have sent := h.pendingSent entry inside
    rw [same, Handle.stateOf, h.notStarted _ le_rfl] at sent
    cases sent

theorem Inv.assertHeld (h : Inv s) : Inv s.assertHeld :=
  (h.newCall .assertHeld).whileHeld (newCall_open h _) rfl fun _ inv _ => inv

theorem Inv.renameWhileHeld (h : Inv s) (source destination : JsString) (expectedDestination : Option JsValue) :
    Inv (s.renameWhileHeld source destination expectedDestination) := by
  unfold Handle.renameWhileHeld
  split
  · refine (h.newCall .invalidRename).settle (newCall_open h _) ?_
    -- a call that has just begun has no command
    intro _ command inside same
    have kind := h.commandKind command inside
    rw [same, Handle.kindOf, h.notStarted _ le_rfl] at kind
    cases kind
  · exact (h.newCall _).whileHeld (newCall_open h _) rfl fun _ inv _ => inv

/-- A call that is checking is open. -/
theorem Inv.open_of_checking (h : Inv s) {c : CallId} (checking : s.stateOf c = some .checking) : s.Open c where
  live := ⟨.checking, checking, fun same => by cases same⟩
  notPending := by
    intro pending
    obtain ⟨entry, inside, same⟩ := List.mem_map.mp pending
    have sent := h.pendingSent entry inside
    rw [same, checking] at sent
    cases sent

/-- A call that is checking has no command. -/
theorem Inv.refused_of_checking (h : Inv s) {c : CallId} (checking : s.stateOf c = some .checking) :
    s.holder.Refused c := by
  intro command inside same
  exact absurd (same ▸ checking) (h.commandState command inside)

theorem Inv.identityChecked (h : Inv s) {c : CallId} {check : IdentityCheck} {next : Handle}
    (step : s.identityChecked c check = some next) : Inv next := by
  unfold Handle.identityChecked at step
  split at step
  · rename_i called
    have checking : s.stateOf c = some .checking := by rw [Handle.stateOf, called]; rfl
    have kind : s.kindOf c = some .assertHeld := by rw [Handle.kindOf, called]; rfl
    have isOpen := h.open_of_checking checking
    cases check with
    | current =>
        obtain rfl := Option.some.inj step
        exact h.settle isOpen (.inl kind)
    | replaced =>
        obtain rfl := Option.some.inj step
        exact h.quiesceAndReject isOpen _ fun notCommitted => by cases notCommitted
    | failed =>
        obtain rfl := Option.some.inj step
        exact h.settle isOpen trivial
  · rename_i request called
    have checking : s.stateOf c = some .checking := by rw [Handle.stateOf, called]; rfl
    have kind : s.kindOf c = some (.rename request) := by rw [Handle.kindOf, called]; rfl
    have isOpen := h.open_of_checking checking
    cases check with
    | current =>
        obtain rfl := Option.some.inj step
        exact h.whileHeld isOpen rfl fun q inv available => inv.send available kind checking
    | replaced =>
        obtain rfl := Option.some.inj step
        exact h.quiesceAndReject isOpen _ fun _ => h.refused_of_checking checking
    | failed =>
        obtain rfl := Option.some.inj step
        exact h.settle isOpen trivial
  · cases step

theorem Inv.quiesced (h : Inv s) {c : CallId} {next : Handle} (step : s.quiesced c = some next) : Inv next := by
  unfold Handle.quiesced at step
  split at step
  · rename_i kind awaited error called
    obtain ⟨cleanupError, -, rfl⟩ := Option.map_eq_some_iff.mp step
    have rejecting : s.stateOf c = some (.rejecting awaited error) := by rw [Handle.stateOf, called]; rfl
    refine h.settle ⟨⟨_, rejecting, fun same => by cases same⟩, ?_⟩ ?_
    · intro pending
      obtain ⟨entry, inside, same⟩ := List.mem_map.mp pending
      have sent := h.pendingSent entry inside
      rw [same, rejecting] at sent
      cases sent
    · intro notCommitted
      refine h.rejecting c awaited error rejecting ?_
      rw [← notCommitted]
      unfold withCause
      split
      · rfl
      · rfl
  · cases step

/-- The answer that a line passes on was given for the command of the pending call. -/
theorem Inv.refused_of_answer (h : Inv s) {id : CommandId} {c : CallId} (inside : (id, c) ∈ s.pendingCommands)
    {answer : Answer} (given : (id, answer) ∈ s.holder.answers) (notOk : answer ≠ .ok) : s.holder.Refused c := by
  intro command written same
  obtain ⟨own, ownWritten, ownId, ownCall⟩ := h.pendingWritten _ inside
  have is : command = own := List.inj_on_of_nodup_map h.commandCalls written ownWritten (same.trans ownCall.symm)
  rw [is, ownId]
  exact ⟨answer, given, notOk⟩

/-- The entry that is found for an id. -/
theorem mem_of_find {entries : List (CommandId × CallId)} {id found : CommandId} {c : CallId}
    (h : entries.find? (fun entry => entry.1 = id) = some (found, c)) : (id, c) ∈ entries := by
  have same : found = id := by simpa using List.find?_some h
  rw [← same]
  exact List.mem_of_find?_eq_some h

theorem Inv.respond (h : Inv s) {id : CommandId} {ok : Bool} {code : ResponseCode}
    (given : ∀ passedOn ∈ (Line.response (some id) ok code).answer.toList, passedOn ∈ s.holder.answers) :
    Inv (s.respond id ok code) := by
  unfold Handle.respond
  split
  · exact h
  · rename_i found c pending
    have inside := mem_of_find pending
    have removed := h.removePending id
    have isOpen := h.open_of_pending inside
    cases ok with
    | true =>
        refine removed.settle isOpen (.inr ?_)
        obtain ⟨command, written, own, same⟩ := h.pendingWritten _ inside
        have answered : (id, Answer.ok) ∈ s.holder.answers := given _ (List.mem_singleton_self _)
        have performed := (h.answered _ answered).mp rfl
        refine ⟨command.rename, ?_, command, written, same, rfl, own ▸ performed⟩
        have kind := h.commandKind command written
        rw [same] at kind
        exact kind
    | false =>
        cases code with
        | lockReplaced =>
            refine removed.quiesceAndReject isOpen _ fun _ => ?_
            exact h.refused_of_answer inside (given _ (List.mem_singleton_self _)) fun same => by cases same
        | lockCommitUncertain =>
            exact removed.quiesceAndReject isOpen _ fun notCommitted => by cases notCommitted
        | destinationChanged =>
            refine removed.settle isOpen fun _ => ?_
            exact h.refused_of_answer inside (given _ (List.mem_singleton_self _)) fun same => by cases same
        | other code =>
            exact removed.settle isOpen fun notCommitted => by cases notCommitted

theorem Inv.lineArrives (h : Inv s) {line : Line} {next : Handle} (step : s.lineArrives line = some next) :
    Inv next := by
  unfold Handle.lineArrives at step
  split at step
  · rename_i given
    obtain rfl := Option.some.inj step
    unfold Handle.lineRead
    split
    · exact h
    · split
      · exact h.respond given
      · exact h
  · cases step

theorem Inv.timedOut (h : Inv s) {id : CommandId} {next : Handle} (step : s.timedOut id = some next) : Inv next := by
  unfold Handle.timedOut at step
  split at step
  · cases step
  · rename_i found c armed
    obtain rfl := Option.some.inj step
    rw [h.timers] at armed
    have inside := mem_of_find armed
    exact (h.removePending id).quiesceAndReject (h.open_of_pending inside) _ fun notCommitted => by
      cases notCommitted

theorem Inv.writeFailed (h : Inv s) (id : CommandId) : Inv (s.writeFailed id) := by
  unfold Handle.writeFailed
  split
  · exact h
  · rename_i found c pending
    have inside := mem_of_find pending
    exact (h.removePending id).quiesceAndReject (h.open_of_pending inside) _ fun notCommitted => by
      cases notCommitted

/-- Performing a command whose answer is open changes nothing that was borne out. -/
theorem Inv.perform (h : Inv s) {id : CommandId} {next : Handle} (step : s.perform id = some next) : Inv next := by
  unfold Handle.perform at step
  split at step
  · rename_i fresh
    obtain rfl := Option.some.inj step
    obtain ⟨⟨-, -, unanswered⟩, -⟩ := fresh
    refine { h with justified := ?_, answered := ?_ }
    · intro entry inside
      have this := h.justified entry inside
      obtain ⟨c, outcome⟩ := entry
      cases outcome with
      | fulfilled =>
          refine this.imp_right ?_
          rintro ⟨rename, is, own, written, same, renames, performed⟩
          exact ⟨rename, is, own, written, same, renames, List.mem_append_left _ performed⟩
      | rejected error => exact this
      | threw => trivial
    · intro entry inside
      have ne : entry.1 ≠ id := fun same => unanswered (same ▸ List.mem_map_of_mem inside)
      rw [h.answered entry inside, List.mem_append, List.mem_singleton]
      exact (or_iff_left ne).symm
  · cases step

/-- A new answer says what was done. -/
theorem Inv.answer (h : Inv s) {id : CommandId} {answer : Answer} {next : Handle}
    (step : s.answer id answer = some next) : Inv next := by
  unfold Handle.answer at step
  split at step
  · rename_i fresh
    obtain rfl := Option.some.inj step
    have keeps {c : CallId} (refused : s.holder.Refused c) :
        ({ s.holder with answers := s.holder.answers ++ [(id, answer)] } : Holder).Refused c := by
      intro command written same
      obtain ⟨given, inside, notOk⟩ := refused command written same
      exact ⟨given, List.mem_append_left _ inside, notOk⟩
    refine { h with rejecting := ?_, justified := ?_, answered := ?_ }
    · intro c awaited error found notCommitted
      exact keeps (h.rejecting c awaited error found notCommitted)
    · intro entry inside
      have this := h.justified entry inside
      obtain ⟨c, outcome⟩ := entry
      cases outcome with
      | fulfilled => exact this
      | rejected error => exact fun notCommitted => keeps (this notCommitted)
      | threw => trivial
    · intro entry inside
      rcases List.mem_append.mp inside with earlier | last
      · exact h.answered entry earlier
      · obtain rfl := List.mem_singleton.mp last
        exact fresh.2
  · cases step

/-- Every event keeps the invariant. -/
theorem Inv.step (h : Inv s) {event : Event} {next : Handle} (taken : step s event = some next) : Inv next := by
  cases event with
  | assertHeld =>
      obtain rfl := Option.some.inj taken
      exact h.assertHeld
  | renameWhileHeld source destination expectedDestination =>
      obtain rfl := Option.some.inj taken
      exact h.renameWhileHeld source destination expectedDestination
  | waitForLoss =>
      obtain rfl := Option.some.inj taken
      unfold Handle.waitForLoss
      split
      · exact h.beginQuiescence .unexpectedLoss false
      · exact h
  | release =>
      obtain rfl := Option.some.inj taken
      unfold Handle.release
      split
      · exact h
      · split
        · exact h
        · have begun := h.beginQuiescence .release true
          exact { begun with }
  | identityChecked c check => exact h.identityChecked taken
  | quiesced c => exact h.quiesced taken
  | releaseQuiesced =>
      simp only [AdvisoryLock.step, Handle.releaseQuiesced] at taken
      split at taken
      · obtain ⟨cleanupError, -, rfl⟩ := Option.map_eq_some_iff.mp taken
        exact { h with }
      · cases taken
  | lineArrives line => exact h.lineArrives taken
  | timedOut id => exact h.timedOut taken
  | writeFailed id =>
      obtain rfl := Option.some.inj taken
      exact h.writeFailed id
  | childExits =>
      obtain rfl := Option.some.inj taken
      exact { h with }
  | exitEvent =>
      simp only [AdvisoryLock.step, Option.ite_none_right_eq_some, Option.some.injEq] at taken
      obtain ⟨-, rfl⟩ := taken
      exact h.beginQuiescence .unexpectedLoss false
  | stopReturned stopFails disposalFails =>
      simp only [AdvisoryLock.step, Handle.stopReturned] at taken
      split at taken
      · rename_i reason inFlight
        obtain rfl := Option.some.inj taken
        have unavailable := h.quiescence.begun (by rw [inFlight]; exact Option.some_ne_none _)
        exact h.withQuiescence ⟨fun _ => unavailable, h.quiescence.lossUnavailable, h.quiescence.settled⟩
          h.lossPending
      · cases taken
  | closeReturned closeFails => exact h.closeReturned taken
  | quiescenceForgotten =>
      simp only [AdvisoryLock.step, Handle.quiescenceForgotten] at taken
      split at taken
      · obtain rfl := Option.some.inj taken
        exact h.withQuiescence ⟨fun some => absurd rfl some, h.quiescence.lossUnavailable, h.quiescence.settled⟩
          h.lossPending
      · cases taken
  | releaseForgotten =>
      simp only [AdvisoryLock.step, Handle.releaseForgotten] at taken
      split at taken
      · obtain rfl := Option.some.inj taken
        exact { h with }
      · cases taken
  | perform id => exact h.perform taken
  | answer id answer => exact h.answer taken

end Steps

/-! ### The unavailable handle -/

/-- What a handle that is unavailable keeps, to a later state: it stays unavailable, writes no command,
and fulfils no call but one that was checking already. -/
structure Frozen (s next : Handle) : Prop where
  unavailable : next.quiescence.unavailable = true
  written : next.holder.written = s.holder.written
  checking : ∀ c, next.stateOf c = some .checking → s.stateOf c = some .checking
  fulfilled : ∀ c, (c, .fulfilled) ∈ next.settlements →
    (c, .fulfilled) ∈ s.settlements ∨ s.stateOf c = some .checking

namespace Frozen

variable {s next : Handle}

theorem refl (unavailable : s.quiescence.unavailable = true) : Frozen s s :=
  ⟨unavailable, rfl, fun _ h => h, fun _ h => .inl h⟩

theorem trans {last : Handle} (first : Frozen s next) (second : Frozen next last) : Frozen s last where
  unavailable := second.unavailable
  written := second.written.trans first.written
  checking c h := first.checking c (second.checking c h)
  fulfilled c h := by
    rcases second.fulfilled c h with before | checking
    · exact first.fulfilled c before
    · exact .inr (first.checking c checking)

theorem withQuiescence (h : Frozen s next) {q : Quiescence} (unavailable : q.unavailable = true) :
    Frozen s (next.withQuiescence q) :=
  { h with unavailable }

theorem beginQuiescence (h : Frozen s next) (reason : Reason) (retry : Bool) :
    Frozen s (next.beginQuiescence reason retry).1 :=
  h.withQuiescence (next.quiescence.beginQuiescence_spec reason retry).1

theorem moveTo (h : Frozen s next) {c : CallId} {state : CallState} (notChecking : state ≠ .checking) :
    Frozen s (next.moveTo c state) where
  unavailable := h.unavailable
  written := h.written
  checking other found := by
    rcases next.stateOf_moveTo_cases found with ⟨-, same⟩ | ⟨-, before⟩
    · exact absurd same.symm notChecking
    · exact h.checking other before
  fulfilled := h.fulfilled

theorem settle (h : Frozen s next) {c : CallId} {outcome : Outcome}
    (allowed : outcome = .fulfilled → s.stateOf c = some .checking) : Frozen s (next.settle c outcome) := by
  have moved : Frozen s (next.moveTo c .done) := h.moveTo fun same => by cases same
  refine { moved with fulfilled := ?_ }
  intro other inside
  rcases List.mem_append.mp inside with earlier | last
  · exact h.fulfilled other earlier
  · obtain ⟨rfl, same⟩ := Prod.mk.inj (List.mem_singleton.mp last)
    exact .inr (allowed same.symm)

theorem removePending (h : Frozen s next) (id : CommandId) : Frozen s (next.removePending id) := { h with }

theorem quiesceAndReject (h : Frozen s next) (c : CallId) (reason : Reason) (error : LockError) :
    Frozen s (next.quiesceAndReject c reason error) :=
  (h.beginQuiescence reason false).moveTo fun same => by cases same

theorem rejectAll (h : Frozen s next) (entries : List (CommandId × CallId)) {outcome : Outcome}
    (notFulfilled : outcome ≠ .fulfilled) :
    Frozen s (entries.foldl (fun s entry => s.settle entry.2 outcome) next) := by
  induction entries generalizing next with
  | nil => exact h
  | cons entry entries ih => exact ih (h.settle fun same => absurd same notFulfilled)

theorem settleQuiescence (h : Frozen s next) (cleanupError : Option CleanupError) (reason : Reason) :
    Frozen s (next.settleQuiescence cleanupError reason) := by
  unfold Handle.settleQuiescence
  split
  · exact h
  · have cleared : Frozen s { next with pendingCommands := [], timers := [] } := { h with }
    rw [rejectPendingCommands_withQuiescence]
    exact (cleared.rejectAll _ fun same => by cases same).withQuiescence h.unavailable

/-- A new call is rejected. -/
theorem rejectNew (unavailable : s.quiescence.unavailable = true) (kind : CallKind) (error : LockError)
    (goOn : Handle → Handle) : Frozen s ((s.newCall kind).whileHeld s.nextCall error goOn) := by
  have observed : (s.newCall kind).observeLoss.1 = s.newCall kind := by
    have same : (s.newCall kind).quiescence.unavailable = true := unavailable
    simp only [Handle.observeLoss, same, Bool.not_true, Bool.false_and, Bool.false_eq_true, if_false]
  have lost : (s.newCall kind).lost = true := by
    have same : (s.newCall kind).quiescence.unavailable = true := unavailable
    simp only [Handle.lost, same, Bool.true_or]
  unfold Handle.whileHeld
  dsimp only
  rw [observed, if_pos lost]
  refine ⟨unavailable, rfl, ?_, fun _ h => .inl h⟩
  intro c found
  rcases (s.newCall kind).stateOf_moveTo_cases found with ⟨-, same⟩ | ⟨ne, before⟩
  · cases same
  · rwa [(s.newCall_of_ne ne kind).1] at before

/-- No event of an unavailable handle writes a command or fulfils a later call. -/
theorem step (unavailable : s.quiescence.unavailable = true) {event : Event}
    (taken : step s event = some next) : Frozen s next := by
  have self := refl unavailable
  have lost : s.lost = true := by simp only [Handle.lost, unavailable, Bool.true_or]
  have observed : s.observeLoss.1 = s := by
    simp only [Handle.observeLoss, unavailable, Bool.not_true, Bool.false_and, Bool.false_eq_true, if_false]
  cases event with
  | assertHeld =>
      obtain rfl := Option.some.inj taken
      exact rejectNew unavailable _ _ _
  | renameWhileHeld source destination expectedDestination =>
      obtain rfl := Option.some.inj taken
      unfold Handle.renameWhileHeld
      split
      · refine ⟨unavailable, rfl, ?_, ?_⟩
        · intro c found
          rcases (s.newCall .invalidRename).stateOf_moveTo_cases found with ⟨-, same⟩ | ⟨ne, before⟩
          · cases same
          · rwa [(s.newCall_of_ne ne _).1] at before
        · intro c inside
          rcases List.mem_append.mp inside with earlier | last
          · exact .inl earlier
          · cases List.mem_singleton.mp last
      · exact rejectNew unavailable _ _ _
  | waitForLoss =>
      obtain rfl := Option.some.inj taken
      unfold Handle.waitForLoss
      split
      · exact self.beginQuiescence _ _
      · exact self
  | release =>
      obtain rfl := Option.some.inj taken
      unfold Handle.release
      split
      · exact self
      · split
        · exact self
        · exact { self.beginQuiescence .release true with }
  | identityChecked c check =>
      simp only [AdvisoryLock.step, Handle.identityChecked] at taken
      split at taken
      · rename_i called
        have checking : s.stateOf c = some .checking := by rw [Handle.stateOf, called]; rfl
        cases check with
        | current =>
            obtain rfl := Option.some.inj taken
            exact self.settle fun _ => checking
        | replaced =>
            obtain rfl := Option.some.inj taken
            exact self.quiesceAndReject _ _ _
        | failed =>
            obtain rfl := Option.some.inj taken
            exact self.settle fun same => by cases same
      · cases check with
        | current =>
            obtain rfl := Option.some.inj taken
            unfold Handle.whileHeld
            dsimp only
            rw [observed, if_pos lost]
            exact self.moveTo fun same => by cases same
        | replaced =>
            obtain rfl := Option.some.inj taken
            exact self.quiesceAndReject _ _ _
        | failed =>
            obtain rfl := Option.some.inj taken
            exact self.settle fun same => by cases same
      · cases taken
  | quiesced c =>
      simp only [AdvisoryLock.step, Handle.quiesced] at taken
      split at taken
      · obtain ⟨cleanupError, -, rfl⟩ := Option.map_eq_some_iff.mp taken
        exact self.settle fun same => by cases same
      · cases taken
  | releaseQuiesced =>
      simp only [AdvisoryLock.step, Handle.releaseQuiesced] at taken
      split at taken
      · obtain ⟨cleanupError, -, rfl⟩ := Option.map_eq_some_iff.mp taken
        exact { self with }
      · cases taken
  | lineArrives line =>
      simp only [AdvisoryLock.step, Handle.lineArrives, Option.ite_none_right_eq_some, Option.some.injEq] at taken
      obtain ⟨-, rfl⟩ := taken
      unfold Handle.lineRead
      rw [if_pos unavailable]
      exact self
  | timedOut id =>
      simp only [AdvisoryLock.step, Handle.timedOut] at taken
      split at taken
      · cases taken
      · obtain rfl := Option.some.inj taken
        exact (self.removePending _).quiesceAndReject _ _ _
  | writeFailed id =>
      obtain rfl := Option.some.inj taken
      unfold Handle.writeFailed
      split
      · exact self
      · exact (self.removePending _).quiesceAndReject _ _ _
  | childExits =>
      obtain rfl := Option.some.inj taken
      exact { self with }
  | exitEvent =>
      simp only [AdvisoryLock.step, Option.ite_none_right_eq_some, Option.some.injEq] at taken
      obtain ⟨-, rfl⟩ := taken
      exact self.beginQuiescence _ _
  | stopReturned stopFails disposalFails =>
      simp only [AdvisoryLock.step, Handle.stopReturned] at taken
      split at taken
      · obtain rfl := Option.some.inj taken
        exact self.withQuiescence unavailable
      · cases taken
  | closeReturned closeFails =>
      simp only [AdvisoryLock.step, Handle.closeReturned] at taken
      split at taken
      · rename_i reason stopError disposalError inFlight
        obtain rfl := Option.some.inj taken
        have closed : (s.quiescence.closeReturned { reason, phase := .closing stopError disposalError } stopError
            disposalError closeFails).1.unavailable = true := unavailable
        exact (self.withQuiescence closed).settleQuiescence _ _
      · cases taken
  | quiescenceForgotten =>
      simp only [AdvisoryLock.step, Handle.quiescenceForgotten] at taken
      split at taken
      · obtain rfl := Option.some.inj taken
        exact self.withQuiescence unavailable
      · cases taken
  | releaseForgotten =>
      simp only [AdvisoryLock.step, Handle.releaseForgotten] at taken
      split at taken
      · obtain rfl := Option.some.inj taken
        exact { self with }
      · cases taken
  | perform id =>
      simp only [AdvisoryLock.step, Handle.perform, Option.ite_none_right_eq_some, Option.some.injEq] at taken
      obtain ⟨-, rfl⟩ := taken
      exact { self with }
  | answer id answer =>
      simp only [AdvisoryLock.step, Handle.answer, Option.ite_none_right_eq_some, Option.some.injEq] at taken
      obtain ⟨-, rfl⟩ := taken
      exact { self with }

end Frozen

/-! ### Settlements stay -/

/-- What has settled stays settled. -/
def Grows (s next : Handle) : Prop := ∀ entry ∈ s.settlements, entry ∈ next.settlements

namespace Grows

variable {s next : Handle}

theorem refl (s : Handle) : Grows s s := fun _ h => h

theorem settle (h : Grows s next) (c : CallId) (outcome : Outcome) : Grows s (next.settle c outcome) :=
  fun entry inside => List.mem_append_left _ (h entry inside)

theorem rejectAll (h : Grows s next) (entries : List (CommandId × CallId)) (outcome : Outcome) :
    Grows s (entries.foldl (fun s entry => s.settle entry.2 outcome) next) := by
  induction entries generalizing next with
  | nil => exact h
  | cons entry entries ih => exact ih (h.settle _ _)

theorem whileHeld (h : Grows s next) {c : CallId} {error : LockError} {goOn : Handle → Handle}
    (goes : ∀ q, Grows s (goOn (next.withQuiescence q))) : Grows s (next.whileHeld c error goOn) := by
  obtain ⟨q, same, -⟩ := observeLoss_frame next
  unfold Handle.whileHeld
  dsimp only
  rw [same]
  split
  · exact h
  · exact goes q

/-- No event takes a settlement back. -/
theorem step {event : Event} (taken : step s event = some next) : Grows s next := by
  have self := refl s
  cases event with
  | assertHeld =>
      obtain rfl := Option.some.inj taken
      have called : Grows s (s.newCall .assertHeld) := self
      exact called.whileHeld fun _ => called
  | renameWhileHeld source destination expectedDestination =>
      obtain rfl := Option.some.inj taken
      unfold Handle.renameWhileHeld
      split
      · exact settle self _ _
      · rename_i expectedDestination _
        have called : Grows s (s.newCall (.rename { source, destination, expectedDestination })) := self
        exact called.whileHeld fun _ => called
  | waitForLoss =>
      obtain rfl := Option.some.inj taken
      unfold Handle.waitForLoss
      split <;> exact self
  | release =>
      obtain rfl := Option.some.inj taken
      unfold Handle.release
      split
      · exact self
      · split <;> exact self
  | identityChecked c check =>
      simp only [AdvisoryLock.step, Handle.identityChecked] at taken
      split at taken
      · cases check with
        | replaced =>
            obtain rfl := Option.some.inj taken
            exact self
        | _ =>
            obtain rfl := Option.some.inj taken
            exact self.settle _ _
      · cases check with
        | current =>
            obtain rfl := Option.some.inj taken
            exact self.whileHeld fun _ => self
        | replaced =>
            obtain rfl := Option.some.inj taken
            exact self
        | failed =>
            obtain rfl := Option.some.inj taken
            exact self.settle _ _
      · cases taken
  | quiesced c =>
      simp only [AdvisoryLock.step, Handle.quiesced] at taken
      split at taken
      · obtain ⟨cleanupError, -, rfl⟩ := Option.map_eq_some_iff.mp taken
        exact self.settle _ _
      · cases taken
  | releaseQuiesced =>
      simp only [AdvisoryLock.step, Handle.releaseQuiesced] at taken
      split at taken
      · obtain ⟨cleanupError, -, rfl⟩ := Option.map_eq_some_iff.mp taken
        exact self
      · cases taken
  | lineArrives line =>
      simp only [AdvisoryLock.step, Handle.lineArrives, Option.ite_none_right_eq_some, Option.some.injEq] at taken
      obtain ⟨-, rfl⟩ := taken
      unfold Handle.lineRead
      split
      · exact self
      · split
        · rename_i id ok code
          unfold Handle.respond
          split
          · exact self
          · cases ok with
            | true => exact settle self _ _
            | false =>
                cases code with
                | destinationChanged => exact settle self _ _
                | other code => exact settle self _ _
                | _ => exact self
        · exact self
  | timedOut id =>
      simp only [AdvisoryLock.step, Handle.timedOut] at taken
      split at taken
      · cases taken
      · obtain rfl := Option.some.inj taken
        exact self
  | writeFailed id =>
      obtain rfl := Option.some.inj taken
      unfold Handle.writeFailed
      split <;> exact self
  | childExits =>
      obtain rfl := Option.some.inj taken
      exact self
  | exitEvent =>
      simp only [AdvisoryLock.step, Option.ite_none_right_eq_some, Option.some.injEq] at taken
      obtain ⟨-, rfl⟩ := taken
      exact self
  | stopReturned stopFails disposalFails =>
      simp only [AdvisoryLock.step, Handle.stopReturned] at taken
      split at taken
      · obtain rfl := Option.some.inj taken
        exact self
      · cases taken
  | closeReturned closeFails =>
      simp only [AdvisoryLock.step, Handle.closeReturned] at taken
      split at taken
      · obtain rfl := Option.some.inj taken
        unfold Handle.settleQuiescence
        split
        · exact self
        · have cleared : Grows s { s with pendingCommands := [], timers := [] } := self
          rw [rejectPendingCommands_withQuiescence, rejectPendingCommands_withQuiescence]
          exact cleared.rejectAll _ _
      · cases taken
  | quiescenceForgotten =>
      simp only [AdvisoryLock.step, Handle.quiescenceForgotten] at taken
      split at taken
      · obtain rfl := Option.some.inj taken
        exact self
      · cases taken
  | releaseForgotten =>
      simp only [AdvisoryLock.step, Handle.releaseForgotten] at taken
      split at taken
      · obtain rfl := Option.some.inj taken
        exact self
      · cases taken
  | perform id =>
      simp only [AdvisoryLock.step, Handle.perform, Option.ite_none_right_eq_some, Option.some.injEq] at taken
      obtain ⟨-, rfl⟩ := taken
      exact self
  | answer id answer =>
      simp only [AdvisoryLock.step, Handle.answer, Option.ite_none_right_eq_some, Option.some.injEq] at taken
      obtain ⟨-, rfl⟩ := taken
      exact self

end Grows

/-! ### Runs -/

section Runs

variable {start s : Handle} {trace : List Event}

theorem Inv.run (h : Inv start) (run : Traces.Run (lifecycle start) trace s) : Inv s := by
  refine @Traces.Run.invariant _ _ _ (fun _ s => Inv s) ?_ ?_ _ _ run
  · rintro _ rfl
    exact h
  · rintro _ state _ next inv ⟨event, taken, -⟩
    exact inv.step taken

theorem Frozen.run (unavailable : start.quiescence.unavailable = true)
    (run : Traces.Run (lifecycle start) trace s) : Frozen start s := by
  refine @Traces.Run.invariant _ _ _ (fun _ s => Frozen start s) ?_ ?_ _ _ run
  · rintro _ rfl
    exact .refl unavailable
  · rintro _ state _ next frozen ⟨event, taken, -⟩
    exact frozen.trans (.step frozen.unavailable taken)

theorem Grows.run (run : Traces.Run (lifecycle start) trace s) : Grows start s := by
  refine @Traces.Run.invariant _ _ _ (fun _ s => Grows start s) ?_ ?_ _ _ run
  · rintro _ rfl
    exact .refl _
  · rintro _ state _ next grows ⟨event, taken, -⟩ entry inside
    exact Grows.step taken entry (grows entry inside)

/-- The calls that the holder was asked to rename for, and what their promises say. -/
structure HandleLaws (s : Handle) : Prop where
  /-- A promise is settled once. -/
  settledOnce : ∀ c, (s.settlements.map Prod.fst).count c ≤ 1
  /-- A call has one command. -/
  commandOnce : ∀ a ∈ s.holder.written, ∀ b ∈ s.holder.written, a.call = b.call → a = b
  /-- A fulfilled rename was performed as it was asked for, and a refused request is not fulfilled. -/
  fulfilled : ∀ c, (c, .fulfilled) ∈ s.settlements →
    s.kindOf c = some .assertHeld ∨ ∃ rename, s.kindOf c = some (.rename rename) ∧ s.holder.Performed c rename
  /-- A rename that carries `not-committed` is never performed. -/
  notCommitted : ∀ c error, (c, .rejected error) ∈ s.settlements →
    error.renameOutcome = some .notCommitted → ∀ trace later, Traces.Run (lifecycle s) trace later →
      ∀ command ∈ later.holder.written, command.call = c → command.id ∉ later.holder.performed
  /-- An unavailable handle writes nothing and fulfils no call that starts later. -/
  unavailable : s.quiescence.unavailable = true → ∀ trace later, Traces.Run (lifecycle s) trace later →
    later.holder.written = s.holder.written ∧ ∀ c, s.calls c = none → (c, .fulfilled) ∉ later.settlements
  /-- After an attempt at quiescence nothing is pending. -/
  quiesced : s.quiescence.results ≠ [] → s.pendingCommands = []

theorem Inv.laws (h : Inv s) : HandleLaws s where
  settledOnce c := List.nodup_iff_count_le_one.mp h.settledOnce c
  commandOnce a left b right same := List.inj_on_of_nodup_map h.commandCalls left right same
  fulfilled c inside := h.justified _ inside
  notCommitted c error inside outcome trace later run command written same performed := by
    have inv := h.run run
    have refused : later.holder.Refused c := inv.justified _ (Grows.run run _ inside) outcome
    obtain ⟨answer, given, notOk⟩ := refused command written same
    exact notOk ((inv.answered _ given).mpr performed)
  unavailable unavailable trace later run := by
    have frozen := Frozen.run unavailable run
    refine ⟨frozen.written, fun c absent inside => ?_⟩
    rcases frozen.fulfilled c inside with settled | checking
    · have done := h.settledDone _ settled
      rw [Handle.stateOf, absent] at done
      cases done
    · rw [Handle.stateOf, absent] at checking
      cases checking
  quiesced some := h.lossPending (h.quiescence.settled some)

/-- The promises of an advisory lock handle, in every run since the lock was acquired. -/
theorem handleLaws (run : Traces.Run (lifecycle .acquired) trace s) : HandleLaws s :=
  (inv_acquired.run run).laws

end Runs

/-! ### A rename -/

/-- A run of given events. -/
def runEvents (s : Handle) (events : List Event) : Option Handle := events.foldlM step s

theorem run_of_runEvents {start s : Handle} {events : List Event} (h : runEvents start events = some s) :
    Traces.Run (lifecycle start) events s := by
  induction events using List.reverseRecOn generalizing s with
  | nil =>
      obtain rfl := Option.some.inj h
      exact .start rfl
  | append_singleton events event ih =>
      rw [runEvents, List.foldlM_append] at h
      obtain ⟨before, earlier, last⟩ := Option.bind_eq_some_iff.mp h
      obtain ⟨next, taken, same⟩ := Option.bind_eq_some_iff.mp last
      obtain rfl := Option.some.inj same
      exact .step (ih earlier) ⟨event, taken, rfl⟩

def firstRename : Rename where
  source := js "next"
  destination := js "current"
  expectedDestination := none

/-- A rename that is performed and answered. -/
def firstRenameEvents : List Event :=
  [.renameWhileHeld firstRename.source firstRename.destination none, .identityChecked 0 .current,
    .perform 1, .answer 1 .ok, .lineArrives .malformed, .lineArrives (.response (some 1) true (.other ""))]

theorem handleLaws_firstRename : ∃ s, runEvents .acquired firstRenameEvents = some s ∧
    (0, .fulfilled) ∈ s.settlements ∧
    (s.kindOf 0 = some .assertHeld ∨
      ∃ rename, s.kindOf 0 = some (.rename rename) ∧ s.holder.Performed 0 rename) := by
  obtain ⟨s, ran⟩ : ∃ s, runEvents .acquired firstRenameEvents = some s := ⟨_, rfl⟩
  have fulfilled : (0, .fulfilled) ∈ s.settlements := by
    obtain rfl := Option.some.inj ran
    exact List.mem_singleton_self _
  exact ⟨s, ran, fulfilled, (handleLaws (run_of_runEvents ran)).fulfilled 0 fulfilled⟩

end PortableCodex.AdvisoryLock
