import PortableCodex.PodmanLaunch.Launch

/-!
When not-started evidence is final.

A reconciliation observes and leaves nothing behind, so a launch that is between its claim and its `create`
goes on after it (`notStarted_followed`). Where no launch holds the attempt when its container is not listed,
and none claims it afterwards, nothing is created or started any more: `Quiet` is kept by every step but a
claim. A record that is there already excludes a claim.
-/

namespace PortableCodex.PodmanLaunch

open Traces

section Steps

variable {world next : World} {events : List Event} {call : Nat} {action : Action}

/-! ### The record -/

@[simp] theorem launches_launch (world : World) (call other : Nat) (place : Launch) :
    (world.launch call place).launches other = if other = call then place else world.launches other :=
  Function.update_apply _ _ _ _

/-- What is recorded or known of a container was created. -/
structure Inv (world : World) : Prop where
  record : ∀ status, world.record = some status → status ≠ .preparing → world.container ≠ none
  done : world.done ≠ [] → world.container ≠ none
  launches : ∀ call, world.launches call = .created ∨ world.launches call = .configured ∨
    world.launches call = .starting ∨ world.launches call = .running → world.container ≠ none

theorem inv_first : Inv .first where
  record _ same := by cases same
  done never := absurd rfl never
  launches _ known := by rcases known with never | never | never | never <;> cases never

theorem Inv.launch {place : Launch} (h : Inv world) (known : place = .created ∨ place = .configured ∨
    place = .starting ∨ place = .running → world.container ≠ none) : Inv (world.launch call place) where
  record := h.record
  done := h.done
  launches other there := by
    rw [launches_launch] at there
    split at there
    · exact known there
    · exact h.launches other there

/-- A call that has ended knows nothing. -/
theorem Inv.end (h : Inv world) : Inv (world.launch call .ended) :=
  h.launch (by rintro (never | never | never | never) <;> cases never)

/-- The launches cannot tell whether commands wait. -/
theorem Inv.commands (h : Inv world) (commands : List Command) : Inv { world with commands } :=
  ⟨h.record, h.done, h.launches⟩

theorem Inv.recorded (h : Inv world) (status : Status) (known : status ≠ .preparing → world.container ≠ none) :
    Inv { world with record := some status } where
  record other same := by
    obtain rfl := Option.some.inj same
    exact known
  done := h.done
  launches := h.launches

/-- A container that is there makes up for everything. -/
theorem inv_contained (world : World) (container : Container) (done : List Command) :
    Inv { world with container := some container, done } where
  record _ _ _ := Option.some_ne_none _
  done _ := Option.some_ne_none _
  launches _ _ := Option.some_ne_none _

theorem Inv.launchWriter (h : Inv world) (ran : launchWriter world call = some (next, events)) : Inv next := by
  unfold PodmanLaunch.launchWriter at ran
  cases place : world.launches call with
  | reading =>
    simp only [place] at ran
    split at ran
    · cases ran
      exact h.launch (by rintro (never | never | never | never) <;> cases never)
    · cases ran
      exact h.end
    · cases ran
      exact h.end
  | unclaimed =>
    simp only [place] at ran
    split at ran
    · cases ran
      refine Inv.recorded (h.launch ?_) .preparing fun other => absurd rfl other
      rintro (never | never | never | never) <;> cases never
    · cases ran
      exact h.end
    · cases ran
      exact h.end
  | claimed =>
    simp only [place] at ran
    cases ran
    exact Inv.commands (h.launch (by rintro (never | never | never | never) <;> cases never)) _
  | creating =>
    simp only [place] at ran
    split at ran
    · rename_i created
      cases ran
      exact h.launch fun _ => h.done (List.ne_nil_of_mem created)
    · cases ran
  | created =>
    have known := h.launches call (.inl place)
    simp only [place] at ran
    split at ran
    · cases ran
      exact Inv.recorded (h.launch fun _ => known) .created fun _ => known
    · cases ran
      exact h.end
  | configured =>
    have known := h.launches call (.inr (.inl place))
    simp only [place] at ran
    split at ran
    · cases ran
      exact Inv.commands (h.launch fun _ => known) _
    · cases ran
      exact h.end
  | starting =>
    have known := h.launches call (.inr (.inr (.inl place)))
    simp only [place] at ran
    split at ran
    · split at ran
      · cases ran
        exact h.launch fun _ => known
      · cases ran
        exact h.end
    · cases ran
  | running =>
    have known := h.launches call (.inr (.inr (.inr place)))
    simp only [place] at ran
    split at ran
    · cases ran
      exact Inv.recorded h.end .started fun _ => known
    · cases ran
      exact h.end
  | ended =>
    simp only [place] at ran
    cases ran

/-- A reconciliation only moves on. -/
theorem reconcileWriterLaunch_eq_some (ran : reconcileWriterLaunch world call = some (next, events)) :
    (∃ place, next = world.reconcile call place) ∧ (events = [] ∨
      world.container = none ∧ events = [.listedNone] ∨ events = [.returned .notStarted] ∨
      world.container = some .exited ∧ events = [.returned .completeStopped]) := by
  unfold reconcileWriterLaunch at ran
  cases place : world.reconciles call with
  | reading =>
    simp only [place] at ran
    split at ran
    all_goals
      cases ran
      exact ⟨⟨_, rfl⟩, .inl rfl⟩
  | listing =>
    simp only [place] at ran
    split at ran
    · rename_i none
      cases ran
      exact ⟨⟨_, rfl⟩, .inr (.inl ⟨none, rfl⟩)⟩
    · cases ran
      exact ⟨⟨_, rfl⟩, .inl rfl⟩
  | notStarted =>
    simp only [place] at ran
    cases ran
    exact ⟨⟨_, rfl⟩, .inr (.inr (.inl rfl))⟩
  | inspecting =>
    simp only [place] at ran
    split at ran
    · rename_i exited
      cases ran
      exact ⟨⟨_, rfl⟩, .inr (.inr (.inr ⟨exited, rfl⟩))⟩
    · cases ran
      exact ⟨⟨_, rfl⟩, .inl rfl⟩
  | ended =>
    simp only [place] at ran
    cases ran

theorem Inv.execute (h : Inv world) (command : Command) : Inv (execute world command).1 := by
  unfold PodmanLaunch.execute
  split
  · exact inv_contained _ _ _
  · exact h
  · exact inv_contained _ _ _
  · exact inv_contained _ _ _
  · rename_i running
    refine ⟨h.record, fun _ => ?_, h.launches⟩
    rw [running]
    exact Option.some_ne_none _
  · exact h

theorem Inv.perform (h : Inv world) (ran : perform world action = some (next, events)) : Inv next := by
  cases action with
  | launch call => exact h.launchWriter ran
  | failLaunch call =>
    cases ran
    exact h.end
  | reconcile call =>
    obtain ⟨⟨place, rfl⟩, -⟩ := reconcileWriterLaunch_eq_some ran
    exact ⟨h.record, h.done, h.launches⟩
  | failReconcile call =>
    cases ran
    exact ⟨h.record, h.done, h.launches⟩
  | effect =>
    unfold PodmanLaunch.perform at ran
    dsimp only at ran
    split at ran
    · cases ran
    · rename_i command commands waiting
      obtain rfl := congrArg Prod.fst (Option.some.inj ran)
      exact (h.commands commands).execute command
  | drop =>
    cases ran
    exact h.commands _
  | rotate =>
    unfold PodmanLaunch.perform at ran
    dsimp only at ran
    split at ran
    · cases ran
    · cases ran
      exact h.commands _
  | exit =>
    unfold PodmanLaunch.perform at ran
    dsimp only at ran
    split at ran
    · cases ran
      exact inv_contained _ _ _
    · cases ran

theorem inv_of_run {trace : List Event} (run : Run podman trace world) : Inv world := by
  refine @Run.invariant _ _ _ (fun _ world => Inv world) ?_ ?_ _ _ run
  · rintro _ rfl
    exact inv_first
  · rintro _ _ _ _ h ⟨action, ran⟩
    exact h.perform ran

/-! ### Quiet worlds -/

/-- Nothing of the attempt is there but perhaps its claim, and nobody goes on with it. -/
structure Quiet (world : World) : Prop where
  record : world.record = none ∨ world.record = some .preparing
  container : world.container = none
  idle : world.Idle

theorem Quiet.launch {place : Launch} (h : Quiet world) (ends : ¬ place.Holds) : Quiet (world.launch call place) where
  record := h.record
  container := h.container
  idle := by
    refine ⟨?_, h.idle.2⟩
    intro other
    rw [launches_launch]
    split
    · exact ends
    · exact h.idle.1 other

theorem Quiet.reconcile {place : Reconcile} (h : Quiet world) : Quiet (world.reconcile call place) :=
  ⟨h.record, h.container, h.idle⟩

theorem Quiet.launchWriter (h : Quiet world) (ran : launchWriter world call = some (next, events))
    (unclaimed : .claimed ∉ events) : Quiet next ∧ events = [] := by
  have free := h.idle.1 call
  unfold PodmanLaunch.launchWriter at ran
  cases place : world.launches call with
  | reading =>
    rcases h.record with absent | preparing
    · simp only [place, absent] at ran
      cases ran
      exact ⟨h.launch not_false, rfl⟩
    · simp only [place, preparing] at ran
      cases ran
      exact ⟨h.launch not_false, rfl⟩
  | unclaimed =>
    rcases h.record with absent | preparing
    · simp only [place, absent] at ran
      cases ran
      exact absurd List.mem_cons_self unclaimed
    · simp only [place, preparing] at ran
      cases ran
      exact ⟨h.launch not_false, rfl⟩
  | ended =>
    simp only [place] at ran
    cases ran
  | claimed => exact absurd (by rw [place]; trivial) free
  | creating => exact absurd (by rw [place]; trivial) free
  | created => exact absurd (by rw [place]; trivial) free
  | configured => exact absurd (by rw [place]; trivial) free
  | starting => exact absurd (by rw [place]; trivial) free
  | running => exact absurd (by rw [place]; trivial) free

/-- A step that is no claim keeps the quiet, and contradicts no evidence. -/
theorem Quiet.perform (h : Quiet world) (ran : perform world action = some (next, events))
    (unclaimed : .claimed ∉ events) : Quiet next ∧ ∀ event ∈ events, ¬ event.Contradicts := by
  cases action with
  | launch call =>
    obtain ⟨quiet, rfl⟩ := h.launchWriter ran unclaimed
    exact ⟨quiet, fun _ never => (by cases never)⟩
  | failLaunch call =>
    cases ran
    exact ⟨h.launch not_false, fun _ never => (by cases never)⟩
  | reconcile call =>
    obtain ⟨⟨place, rfl⟩, told⟩ := reconcileWriterLaunch_eq_some ran
    refine ⟨h.reconcile, ?_⟩
    intro event inside
    rcases told with rfl | ⟨-, rfl⟩ | rfl | ⟨exited, -⟩
    · cases inside
    · rw [List.mem_singleton.mp inside]
      exact not_false
    · rw [List.mem_singleton.mp inside]
      exact not_false
    · rw [h.container] at exited
      cases exited
  | failReconcile call =>
    cases ran
    exact ⟨h.reconcile, fun _ never => (by cases never)⟩
  | effect =>
    unfold PodmanLaunch.perform at ran
    rw [h.idle.2] at ran
    cases ran
  | drop =>
    cases ran
    refine ⟨⟨h.record, h.container, h.idle.1, ?_⟩, fun _ never => (by cases never)⟩
    show world.commands.tail = []
    rw [h.idle.2]
    rfl
  | rotate =>
    unfold PodmanLaunch.perform at ran
    rw [h.idle.2] at ran
    cases ran
  | exit =>
    unfold PodmanLaunch.perform at ran
    dsimp only at ran
    rw [h.container, if_neg (by rintro ⟨⟩)] at ran
    cases ran

/-! ### Claims -/

/-- A record that is there stays, so nobody claims the attempt. -/
theorem launchWriter_recorded (ran : launchWriter world call = some (next, events)) (recorded : world.record ≠ none) :
    next.record ≠ none ∧ .claimed ∉ events := by
  unfold launchWriter at ran
  cases place : world.launches call with
  | reading | unclaimed =>
    -- both look at the record first
    simp only [place] at ran
    split at ran
    · contradiction
    · cases ran
      exact ⟨recorded, by simp⟩
    · cases ran
      exact ⟨recorded, List.not_mem_nil⟩
  | claimed =>
    simp only [place] at ran
    cases ran
    exact ⟨recorded, List.not_mem_nil⟩
  | creating =>
    simp only [place] at ran
    split at ran
    · cases ran
      exact ⟨recorded, List.not_mem_nil⟩
    · cases ran
  | created =>
    simp only [place] at ran
    split at ran
    · cases ran
      exact ⟨Option.some_ne_none _, List.not_mem_nil⟩
    · cases ran
      exact ⟨recorded, List.not_mem_nil⟩
  | configured =>
    simp only [place] at ran
    split at ran
    · cases ran
      exact ⟨recorded, List.not_mem_nil⟩
    · cases ran
      exact ⟨recorded, List.not_mem_nil⟩
  | starting =>
    simp only [place] at ran
    split at ran
    · split at ran
      · cases ran
        exact ⟨recorded, List.not_mem_nil⟩
      · cases ran
        exact ⟨recorded, List.not_mem_nil⟩
    · cases ran
  | running =>
    simp only [place] at ran
    split at ran
    · cases ran
      exact ⟨Option.some_ne_none _, by simp⟩
    · cases ran
      exact ⟨recorded, List.not_mem_nil⟩
  | ended =>
    simp only [place] at ran
    cases ran

theorem execute_record (world : World) (command : Command) :
    (execute world command).1.record = world.record ∧ .claimed ∉ (execute world command).2 := by
  unfold execute
  split
  all_goals exact ⟨rfl, by simp⟩

theorem perform_recorded (ran : perform world action = some (next, events)) (recorded : world.record ≠ none) :
    next.record ≠ none ∧ .claimed ∉ events := by
  cases action with
  | launch call => exact launchWriter_recorded ran recorded
  | failLaunch call =>
    cases ran
    exact ⟨recorded, List.not_mem_nil⟩
  | reconcile call =>
    obtain ⟨⟨place, rfl⟩, told⟩ := reconcileWriterLaunch_eq_some ran
    refine ⟨recorded, ?_⟩
    rcases told with rfl | ⟨-, rfl⟩ | rfl | ⟨-, rfl⟩
    all_goals simp
  | failReconcile call =>
    cases ran
    exact ⟨recorded, List.not_mem_nil⟩
  | effect =>
    unfold perform at ran
    dsimp only at ran
    split at ran
    · cases ran
    · rename_i command commands waiting
      have both := Option.some.inj ran
      obtain rfl := congrArg Prod.fst both
      obtain rfl := congrArg Prod.snd both
      obtain ⟨same, silent⟩ := execute_record { world with commands } command
      rw [same]
      exact ⟨recorded, silent⟩
  | drop =>
    cases ran
    exact ⟨recorded, List.not_mem_nil⟩
  | rotate =>
    unfold perform at ran
    dsimp only at ran
    split at ran
    · cases ran
    · cases ran
      exact ⟨recorded, List.not_mem_nil⟩
  | exit =>
    unfold perform at ran
    dsimp only at ran
    split at ran
    · cases ran
      exact ⟨recorded, List.not_mem_nil⟩
    · cases ran

/-- Only a reconciliation lists, and only where there is no container. -/
theorem listed_eq (ran : perform world action = some (next, [.listedNone])) :
    world.container = none ∧ ∃ call place, next = world.reconcile call place := by
  cases action with
  | launch call =>
    change launchWriter world call = _ at ran
    unfold launchWriter at ran
    exfalso
    cases place : world.launches call
    all_goals
      simp only [place] at ran
      repeat' split at ran
      all_goals cases ran
  | reconcile call =>
    obtain ⟨⟨place, same⟩, told⟩ := reconcileWriterLaunch_eq_some ran
    rcases told with never | ⟨none, -⟩ | never | ⟨-, never⟩
    · cases never
    · exact ⟨none, call, place, same⟩
    · cases never
    · cases never
  | effect =>
    unfold perform at ran
    dsimp only at ran
    split at ran
    · cases ran
    · have told := congrArg Prod.snd (Option.some.inj ran)
      exfalso
      unfold execute at told
      split at told
      all_goals cases told
  | failLaunch call => cases ran
  | failReconcile call => cases ran
  | drop => cases ran
  | rotate =>
    unfold perform at ran
    dsimp only at ran
    split at ran
    · cases ran
    · cases ran
  | exit =>
    unfold perform at ran
    dsimp only at ran
    split at ran
    · cases ran
    · cases ran

end Steps

end PortableCodex.PodmanLaunch
