import Mathlib.Data.List.Count
import Mathlib.Data.List.Induction

/-!
Systems that emit events, and laws about the order of events.

A `System` takes steps that each emit some events; a `Run` collects them. What holds of every run is
shown by an invariant of the trace and the state (`Run.invariant`). A law says of each event what must
have happened before it: a trace is `Lawful` if all its events satisfy it, and a step preserves this
when the events it emits do (`Lawful.append`).
-/

namespace PortableCodex.Traces

/-- The first states and the steps of a system, each step with the events it emits. -/
structure System (State Event : Type) where
  start : State → Prop
  step : State → List Event → State → Prop

section Runs

variable {State Event : Type} {system : System State Event}

/-- The events and the last state of a run. -/
inductive Run (system : System State Event) : List Event → State → Prop where
  | start {state} : system.start state → Run system [] state
  | step {trace state events next} : Run system trace state → system.step state events next →
      Run system (trace ++ events) next

theorem Run.invariant {holds : List Event → State → Prop}
    (start : ∀ state, system.start state → holds [] state)
    (step : ∀ trace state events next, holds trace state → system.step state events next →
      holds (trace ++ events) next) {trace : List Event} {state : State} (run : Run system trace state) :
    holds trace state := by
  induction run with
  | start first => exact start _ first
  | step _ taken ih => exact step _ _ _ _ ih taken

/-- A run goes on with events whose steps a function computes. -/
theorem Run.foldlM {step : State → Event → Option State} {trace events : List Event} {state next : State}
    (run : Run system trace state)
    (steps : ∀ event ∈ events, ∀ state next, step state event = some next → system.step state [event] next)
    (ran : events.foldlM step state = some next) : Run system (trace ++ events) next := by
  induction events generalizing trace state with
  | nil =>
      obtain rfl := Option.some.inj ran
      rw [List.append_nil]
      exact run
  | cons event events ih =>
      rw [List.foldlM_cons] at ran
      obtain ⟨middle, taken, ran⟩ := Option.bind_eq_some_iff.mp ran
      have first := steps event List.mem_cons_self _ _ taken
      have whole := ih (run.step first) (fun other inside => steps other (List.mem_cons_of_mem _ inside)) ran
      rwa [List.append_assoc] at whole

end Runs

section Laws

variable {Event : Type} {law : List Event → Event → Prop} {trace events : List Event}

/-- Every event satisfies the law with the events before it. -/
def Lawful (law : List Event → Event → Prop) (trace : List Event) : Prop :=
  ∀ before event after, trace = before ++ event :: after → law before event

theorem lawful_nil : Lawful law [] := by
  intro before event after form
  exact absurd form.symm (List.append_ne_nil_of_right_ne_nil _ (List.cons_ne_nil _ _))

theorem Lawful.snoc (h : Lawful law trace) {event : Event} (holds : law trace event) :
    Lawful law (trace ++ [event]) := by
  intro before other after form
  rcases List.eq_nil_or_concat after with rfl | ⟨rest, last, rfl⟩
  · obtain ⟨rfl, same⟩ := List.append_inj' form rfl
    obtain rfl := List.head_eq_of_cons_eq same
    exact holds
  · rw [List.concat_eq_append, ← List.cons_append, ← List.append_assoc] at form
    obtain ⟨same, -⟩ := List.append_inj' form rfl
    exact h before other rest same

/-- The events of a step, each with the events before it. -/
theorem Lawful.append (h : Lawful law trace)
    (holds : ∀ before event after, events = before ++ event :: after → law (trace ++ before) event) :
    Lawful law (trace ++ events) := by
  induction events using List.reverseRecOn with
  | nil => rwa [List.append_nil]
  | append_singleton events event ih =>
      rw [← List.append_assoc]
      refine Lawful.snoc (ih fun before other after form => ?_) (holds events event [] rfl)
      exact holds before other (after ++ [event]) (by rw [form, List.append_assoc, List.cons_append])

/-- Events of a kind that the law admits only once. -/
theorem Lawful.countP_le_one (h : Lawful law trace) (kind : Event → Bool)
    (once : ∀ before event, law before event → kind event = true → ∀ earlier ∈ before, kind earlier = false) :
    trace.countP kind ≤ 1 := by
  induction trace using List.reverseRecOn with
  | nil => exact Nat.zero_le _
  | append_singleton trace event ih =>
      have earlier : Lawful law trace := by
        intro before other after form
        exact h before other (after ++ [event]) (by rw [form, List.append_assoc, List.cons_append])
      rw [List.countP_append, List.countP_singleton]
      split
      · rename_i is
        have none := once trace event (h trace event [] rfl) is
        have zero : trace.countP kind = 0 := List.countP_eq_zero.mpr fun other member => by
          rw [none other member]
          exact Bool.false_ne_true
        omega
      · exact ih earlier

end Laws

end PortableCodex.Traces
