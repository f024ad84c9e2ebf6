import Mathlib.Data.List.Chain

/-!
Programs that ask their surroundings, and what holds at each of their steps.

A `Program` is finished or at an operation, and goes on from the answer. An `effect` says which answers an
operation can get in a state and what it makes of the state. An `Execution` follows a program and can stop
before any operation, as a crash does.

`Safe` is the rely-guarantee triple, by recursion on the program: whatever the others do within `rely`
before an operation, the operation stays within `guarantee`, and the result satisfies `post`. For a program
that runs alone the relation of the others is equality; `Safe.execution` says what this means for its
executions. `Quiet` programs leave the state as it is.
-/

namespace PortableCodex.Traces

/-- A program with a result, over operations with answers. -/
inductive Program (Op : Type) (Answer : Op → Type) (A : Type) where
  | done (value : A)
  | ask (op : Op) (next : Answer op → Program Op Answer A)

/-- The answers to an operation in a state, with the state after it. -/
abbrev Effect (Op : Type) (Answer : Op → Type) (State : Type) := State → (op : Op) → Answer op → State → Prop

variable {Op : Type} {Answer : Op → Type} {State A B E : Type}

namespace Program

def bind : Program Op Answer A → (A → Program Op Answer B) → Program Op Answer B
  | .done value, next => next value
  | .ask op rest, next => .ask op fun answer => (rest answer).bind next

instance monad : Monad (Program Op Answer) where
  pure := .done
  bind := bind

/-- One operation. -/
def perform (op : Op) : Program Op Answer (Answer op) := .ask op .done

end Program

/-- A program that can throw. -/
abbrev Fallible (Op : Type) (Answer : Op → Type) (E : Type) := ExceptT E (Program Op Answer)

/-! ### Executions -/

/-- A program alone: the states after its operations, and its result if it does not stop before. -/
inductive Execution (effect : Effect Op Answer State) :
    Program Op Answer A → State → List State → Option A → State → Prop where
  | done (value state) : Execution effect (.done value) state [] (some value) state
  | stops (program state) : Execution effect program state [] none state
  | ask {op next state answer after path result last} : effect state op answer after →
      Execution effect (next answer) after path result last →
      Execution effect (.ask op next) state (after :: path) result last

/-- Where every operation gets an answer, every program comes to its end. -/
theorem Execution.exists {effect : Effect Op Answer State}
    (total : ∀ state op, ∃ answer after, effect state op answer after) (program : Program Op Answer A)
    (state : State) : ∃ path value last, Execution effect program state path (some value) last := by
  induction program generalizing state with
  | done value => exact ⟨[], value, state, .done value state⟩
  | ask op next ih =>
      obtain ⟨answer, after, effected⟩ := total state op
      obtain ⟨path, value, last, rest⟩ := ih answer after
      exact ⟨after :: path, value, last, .ask effected rest⟩

theorem Execution.mono {effect effect' : Effect Op Answer State} {program : Program Op Answer A} {state last : State}
    {path : List State} {result : Option A} (execution : Execution effect program state path result last)
    (wider : ∀ state op answer after, effect state op answer after → effect' state op answer after) :
    Execution effect' program state path result last := by
  induction execution with
  | done value state => exact .done value state
  | stops program state => exact .stops program state
  | ask effected _ ih => exact .ask (wider _ _ _ _ effected) ih

theorem Execution.last_eq {effect : Effect Op Answer State} {program : Program Op Answer A} {state : State}
    {path : List State} {result : Option A} {last : State} (execution : Execution effect program state path result last) :
    (state :: path).getLast? = some last := by
  induction execution with
  | done value state => rfl
  | stops program state => rfl
  | ask effected rest ih => rw [List.getLast?_cons_cons, ih]

/-- The run of a program whose operations are answered by a function: its states, its result and its last state. -/
def Program.answered (answer : State → (op : Op) → Answer op × State) :
    Program Op Answer A → State → List State × A × State
  | .done value, state => ([], value, state)
  | .ask op next, state =>
      let answered := answer state op
      let rest := (next answered.1).answered answer answered.2
      (answered.2 :: rest.1, rest.2)

theorem Execution.answered {effect : Effect Op Answer State} {answer : State → (op : Op) → Answer op × State}
    (truthful : ∀ state op, effect state op (answer state op).1 (answer state op).2) (program : Program Op Answer A)
    (state : State) :
    Execution effect program state (program.answered answer state).1 (some (program.answered answer state).2.1)
      (program.answered answer state).2.2 := by
  induction program generalizing state with
  | done value => exact .done value state
  | ask op next ih => exact .ask (truthful state op) (ih _ _)

/-! ### Triples -/

/-- The rely-guarantee triple of a program. -/
def Safe (effect : Effect Op Answer State) (rely guarantee : State → State → Prop)
    (post : A → State → Prop) : Program Op Answer A → State → Prop
  | .done value, state => post value state
  | .ask op next, state => ∀ before, rely state before → ∀ answer after, effect before op answer after →
      guarantee before after ∧ Safe effect rely guarantee post (next answer) after

section Rules

variable {effect : Effect Op Answer State} {rely guarantee guarantee' : State → State → Prop}
  {state : State} {post post' : A → State → Prop}

theorem Safe.mono {program : Program Op Answer A} (safe : Safe effect rely guarantee post program state)
    (wider : ∀ s s', guarantee s s' → guarantee' s s') (weaker : ∀ a s, post a s → post' a s) :
    Safe effect rely guarantee' post' program state := by
  induction program generalizing state with
  | done value => exact weaker value state safe
  | ask op next ih =>
      intro before relied answer after effected
      obtain ⟨guaranteed, rest⟩ := safe before relied answer after effected
      exact ⟨wider before after guaranteed, ih answer rest⟩

theorem Safe.bind {program : Program Op Answer A} {next : A → Program Op Answer B} {last : B → State → Prop}
    (safe : Safe effect rely guarantee post program state)
    (rest : ∀ a s, post a s → Safe effect rely guarantee last (next a) s) :
    Safe effect rely guarantee last (program >>= next) state := by
  induction program generalizing state with
  | done value => exact rest value state safe
  | ask op asked ih =>
      intro before relied answer after effected
      obtain ⟨guaranteed, more⟩ := safe before relied answer after effected
      exact ⟨guaranteed, ih answer more⟩

/-- A program that goes on after what another one returns or throws. -/
theorem Safe.bindExcept {program : Fallible Op Answer E A} {next : A → Fallible Op Answer E B}
    {middle : Except E A → State → Prop} {last : Except E B → State → Prop}
    (safe : Safe effect rely guarantee middle program.run state)
    (ok : ∀ a s, middle (.ok a) s → Safe effect rely guarantee last (next a).run s)
    (thrown : ∀ e s, middle (.error e) s → last (.error e) s) :
    Safe effect rely guarantee last (program >>= next).run state := by
  refine Safe.bind safe ?_
  rintro (e | a) s holds
  · exact thrown e s holds
  · exact ok a s holds

theorem Safe.tryCatch {program : Fallible Op Answer E A} {handler : E → Fallible Op Answer E A}
    {middle last : Except E A → State → Prop} (safe : Safe effect rely guarantee middle program.run state)
    (ok : ∀ a s, middle (.ok a) s → last (.ok a) s)
    (thrown : ∀ e s, middle (.error e) s → Safe effect rely guarantee last (handler e).run s) :
    Safe effect rely guarantee last (tryCatch program handler).run state := by
  refine Safe.bind safe ?_
  rintro (e | a) s holds
  · exact thrown e s holds
  · exact ok a s holds

theorem Safe.and {program : Program Op Answer A} (first : Safe effect rely guarantee post program state)
    (second : Safe effect rely guarantee' post' program state) :
    Safe effect rely (fun s s' => guarantee s s' ∧ guarantee' s s') (fun a s => post a s ∧ post' a s) program state := by
  induction program generalizing state with
  | done value => exact ⟨first, second⟩
  | ask op next ih =>
      intro before relied answer after effected
      obtain ⟨guaranteed, rest⟩ := first before relied answer after effected
      obtain ⟨guaranteed', rest'⟩ := second before relied answer after effected
      exact ⟨⟨guaranteed, guaranteed'⟩, ih answer rest rest'⟩

theorem Safe.trivial (program : Program Op Answer A) (state : State) :
    Safe effect rely (fun _ _ => True) (fun _ _ => True) program state := by
  induction program generalizing state with
  | done value => exact True.intro
  | ask op next ih => exact fun _ _ answer after _ => ⟨True.intro, ih answer after⟩

/-- What the triple of a program alone says of its executions. -/
theorem Safe.execution {program : Program Op Answer A} {path : List State} {result : Option A} {last : State}
    (safe : Safe effect Eq guarantee post program state)
    (execution : Execution effect program state path result last) :
    List.IsChain guarantee (state :: path) ∧ (∀ a, result = some a → post a last) := by
  induction execution with
  | done value state =>
      refine ⟨.singleton state, ?_⟩
      rintro _ ⟨⟩
      exact safe
  | stops program state => exact ⟨.singleton state, nofun⟩
  | ask effected _ ih =>
      obtain ⟨guaranteed, rest⟩ := safe _ rfl _ _ effected
      obtain ⟨chain, ends⟩ := ih rest
      exact ⟨.cons_cons guaranteed chain, ends⟩

end Rules

/-! ### Quiet programs -/

section Quiet

variable {effect : Effect Op Answer State} {guarantee : State → State → Prop} {state : State}

/-- A program alone that leaves the state as it is. -/
def Quiet (effect : Effect Op Answer State) (post : A → State → Prop) (program : Program Op Answer A) : Prop :=
  ∀ state, Safe effect Eq Eq (fun a after => after = state ∧ post a state) program state

variable {post : A → State → Prop}

theorem Quiet.done {value : A} (holds : ∀ state, post value state) :
    Quiet effect post (.done value : Program Op Answer A) := fun state => ⟨rfl, holds state⟩

theorem Quiet.perform {op : Op} {post : Answer op → State → Prop}
    (unchanged : ∀ state answer after, effect state op answer after → state = after ∧ post answer state) :
    Quiet effect post (Program.perform op) := by
  rintro state before rfl answer after effected
  obtain ⟨same, holds⟩ := unchanged state answer after effected
  exact ⟨same, same.symm, holds⟩

theorem Quiet.mono {program : Program Op Answer A} {post' : A → State → Prop} (quiet : Quiet effect post program)
    (weaker : ∀ a s, post a s → post' a s) : Quiet effect post' program := fun state =>
  (quiet state).mono (fun _ _ => id) fun a _ ⟨same, holds⟩ => ⟨same, weaker a state holds⟩

theorem Quiet.bind {program : Program Op Answer A} {next : A → Program Op Answer B} {last : B → State → Prop}
    (quiet : Quiet effect post program)
    (rest : ∀ a, Quiet effect (fun b s => post a s → last b s) (next a)) :
    Quiet effect last (program >>= next) := by
  intro state
  refine Safe.bind (quiet state) ?_
  rintro a s ⟨rfl, holds⟩
  exact (rest a s).mono (fun _ _ => id) fun b after ⟨same, ends⟩ => ⟨same, ends holds⟩

theorem Quiet.bindExcept {program : Fallible Op Answer E A} {next : A → Fallible Op Answer E B}
    {middle : Except E A → State → Prop} {last : Except E B → State → Prop}
    (quiet : Quiet effect middle program.run)
    (ok : ∀ a, Quiet effect (fun b s => middle (.ok a) s → last b s) (next a).run)
    (thrown : ∀ e s, middle (.error e) s → last (.error e) s) :
    Quiet effect last (program >>= next).run := by
  refine Quiet.bind quiet ?_
  rintro (e | a)
  · exact Quiet.done (thrown e)
  · exact ok a

/-- A quiet program before one that changes the state. -/
theorem Quiet.then {program : Fallible Op Answer E A} {next : A → Fallible Op Answer E B}
    {middle : Except E A → State → Prop} {last : Except E B → State → Prop}
    (quiet : Quiet effect middle program.run) (reflexive : ∀ s, guarantee s s)
    (ok : ∀ a, middle (.ok a) state → Safe effect Eq guarantee last (next a).run state)
    (thrown : ∀ e, middle (.error e) state → last (.error e) state) :
    Safe effect Eq guarantee last (program >>= next).run state := by
  refine Safe.bindExcept ((quiet state).mono (fun s _ same => same ▸ reflexive s) fun _ _ => id) ?_ ?_
  · rintro a s ⟨rfl, holds⟩
    exact ok a holds
  · rintro e s ⟨rfl, holds⟩
    exact thrown e holds

end Quiet

end PortableCodex.Traces
