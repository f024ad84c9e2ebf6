import PortableCodex.PodmanLaunch.LaunchLaws

/-!
Runs of launches and reconciliations.

`notStarted_final` is about the runs that go on from a listing without a container, the one on which a
reconciliation returns its not-started evidence.
-/

namespace PortableCodex.PodmanLaunch

open Traces

/-- The runs that go on from a world. -/
def podmanFrom (world : World) : System World Event := { podman with start := fun first => first = world }

section Runs

variable {world last : World} {trace : List Event}

theorem quiet_of_run (run : Run (podmanFrom world) trace last) (quiet : Quiet world) (unclaimed : .claimed ∉ trace) :
    Quiet last ∧ ∀ event ∈ trace, ¬ event.Contradicts := by
  refine @Run.invariant _ _ _ (fun trace last => .claimed ∉ trace →
    Quiet last ∧ ∀ event ∈ trace, ¬ event.Contradicts) ?_ ?_ _ _ run unclaimed
  · rintro _ rfl -
    exact ⟨quiet, fun _ never => (by cases never)⟩
  · rintro trace state events next ih ⟨action, ran⟩ unclaimed
    obtain ⟨before, here⟩ := not_or.mp (fun inside => unclaimed (List.mem_append.mpr inside))
    obtain ⟨quiet, earlier⟩ := ih before
    obtain ⟨quiet, now⟩ := quiet.perform ran here
    refine ⟨quiet, ?_⟩
    intro event inside
    rcases List.mem_append.mp inside with inside | inside
    · exact earlier event inside
    · exact now event inside

theorem unclaimed_of_run (run : Run (podmanFrom world) trace last) (recorded : world.record ≠ none) :
    last.record ≠ none ∧ .claimed ∉ trace := by
  refine @Run.invariant _ _ _ (fun trace last => last.record ≠ none ∧ .claimed ∉ trace) ?_ ?_ _ _ run
  · rintro _ rfl
    exact ⟨recorded, List.not_mem_nil⟩
  · rintro trace state events next ⟨recorded, silent⟩ ⟨action, ran⟩
    obtain ⟨recorded, here⟩ := perform_recorded ran recorded
    refine ⟨recorded, ?_⟩
    intro inside
    rcases List.mem_append.mp inside with inside | inside
    · exact silent inside
    · exact here inside

/-- A listing without a container, while no launch goes on, leaves a quiet world. -/
theorem quiet_of_listed {next : World} (run : Run podman trace world)
    (listed : podman.step world [.listedNone] next) (idle : world.Idle) :
    Quiet next ∧ next.record = world.record := by
  obtain ⟨action, ran⟩ := listed
  obtain ⟨absent, call, place, rfl⟩ := listed_eq ran
  refine ⟨⟨?_, absent, idle⟩, rfl⟩
  cases recorded : world.record with
  | none => exact .inl recorded
  | some status =>
    right
    by_cases preparing : status = .preparing
    · exact recorded.trans (congrArg some preparing)
    · exact absurd absent ((inv_of_run run).record status recorded preparing)

end Runs

/-- Where no launch goes on that has claimed the attempt when a reconciliation lists no container, and none
claims it afterwards, its not-started evidence is final. Where the attempt is claimed already, none does. -/
theorem notStarted_final (before after : List Event) (world next last : World) (run : Run podman before world)
    (listed : podman.step world [.listedNone] next) (idle : world.Idle)
    (rest : Run (podmanFrom next) after last) (unclaimed : world.record = none → .claimed ∉ after) :
    ∀ event ∈ after, ¬ event.Contradicts := by
  obtain ⟨quiet, same⟩ := quiet_of_listed run listed idle
  refine (quiet_of_run rest quiet ?_).2
  by_cases absent : world.record = none
  · exact unclaimed absent
  · rw [← same] at absent
    exact (unclaimed_of_run rest absent).2

/-! ### A launch that pauses after its claim -/

/-- The steps of actions, with their events. -/
def performAll (world : World) : List Action → Option (World × List Event)
  | [] => some (world, [])
  | action :: actions => do
      let (next, events) ← perform world action
      let (last, others) ← performAll next actions
      some (last, events ++ others)

theorem run_performAll {system : System World Event} {world last : World} {trace events : List Event}
    {actions : List Action} (run : Run system trace world) (steps : system.step = podman.step)
    (ran : performAll world actions = some (last, events)) : Run system (trace ++ events) last := by
  induction actions generalizing world trace events with
  | nil =>
    cases ran
    rw [List.append_nil]
    exact run
  | cons action actions ih =>
    obtain ⟨⟨next, here⟩, first, ran⟩ := Option.bind_eq_some_iff.mp ran
    obtain ⟨⟨end', others⟩, later, same⟩ := Option.bind_eq_some_iff.mp ran
    cases same
    rw [← List.append_assoc]
    refine ih (run.step ?_) later
    rw [steps]
    exact ⟨action, first⟩

/-- A launch claims and pauses. -/
def paused : List Action := [.launch 0, .launch 0]

/-- A reconciliation reads the claim, lists no container and returns. -/
def reconciled : List Action := [.reconcile 0, .reconcile 0, .reconcile 0]

theorem performAll_overtaken : ∃ last, performAll .first (paused ++ reconciled ++ [.launch 0, .effect]) =
    some (last, [.claimed, .listedNone, .returned .notStarted, .created]) := ⟨_, rfl⟩

/-- The container of the paused launch is created after the evidence. -/
theorem notStarted_followed : ¬ ∀ trace world, Run podman trace world → Final trace := by
  intro final
  obtain ⟨last, ran⟩ := performAll_overtaken
  have start : Run podman [] .first := .start rfl
  have run := run_performAll start rfl ran
  exact final _ _ run [.claimed, .listedNone] [.created] rfl .created List.mem_cons_self trivial

/-- The launch fails after its claim. -/
theorem notStarted_final_failed : ∃ world next last, Run podman [.claimed] world ∧ world.Idle ∧
    Run (podmanFrom next) [.returned .notStarted] last ∧
    ∀ event ∈ [Event.returned .notStarted], ¬ event.Contradicts := by
  obtain ⟨world, ran, idle, recorded, next, listed, last, rest⟩ : ∃ world,
      performAll .first (paused ++ [.failLaunch 0, .reconcile 0]) = some (world, [.claimed]) ∧ world.Idle ∧
      world.record = some .preparing ∧ ∃ next, perform world (.reconcile 0) = some (next, [.listedNone]) ∧
      ∃ last, performAll next [.reconcile 0, .launch 1] = some (last, [.returned .notStarted]) := by
    refine ⟨_, rfl, ⟨?_, rfl⟩, rfl, _, rfl, _, rfl⟩
    intro call
    show ¬ ((((World.first.launch 0 .unclaimed).launch 0 .claimed).launch 0 .ended).launches call).Holds
    rw [launches_launch]
    split
    · exact not_false
    · rename_i other
      rw [launches_launch, if_neg other, launches_launch, if_neg other]
      exact not_false
  have start : Run podman [] .first := .start rfl
  have run : Run podman [.claimed] world := run_performAll start rfl ran
  have starts : Run (podmanFrom next) [] next := .start rfl
  have after : Run (podmanFrom next) [.returned .notStarted] last := run_performAll starts rfl rest
  refine ⟨world, next, last, run, idle, after, ?_⟩
  refine notStarted_final [.claimed] _ world next last run ⟨_, listed⟩ idle after ?_
  intro absent
  rw [recorded] at absent
  cases absent

end PortableCodex.PodmanLaunch
