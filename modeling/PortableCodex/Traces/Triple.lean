import PortableCodex.Traces.Program

/-!
Triples of programs that run among others, with what lasts from state to state.

`Triple later pre m post`: from a state where `pre` holds, every step of `m` stays within the guarantee, the
state it ends in is `later` than the first, and what it returns satisfies `post`. Nothing is said of what it
throws. Knowledge that `later` keeps (`Lasts`) is carried past a program (`Triple.frame`).
-/

namespace PortableCodex.Traces

variable {Op : Type} {Answer : Op → Type} {State A B E : Type}

/-- The result of a program that throws, as a value. -/
def attempt (m : Fallible Op Answer E A) : Fallible Op Answer E (Except E A) := ExceptT.lift m.run

/-- Knowledge that is kept. -/
def Lasts (later : State → State → Prop) (holds : State → Prop) : Prop :=
  ∀ s s', later s s' → holds s → holds s'

theorem Lasts.and {later : State → State → Prop} {first second : State → Prop} (h : Lasts later first)
    (h' : Lasts later second) : Lasts later fun s => first s ∧ second s :=
  fun s s' next holds => ⟨h s s' next holds.1, h' s s' next holds.2⟩

/-- The surroundings of a program: what its operations do, what the others do between them, and what it may do. -/
structure Setting (Op : Type) (Answer : Op → Type) (State : Type) where
  effect : Effect Op Answer State
  rely : State → State → Prop
  guarantee : State → State → Prop

/-- An order of states that the others keep to. -/
structure Setting.Order (setting : Setting Op Answer State) (later : State → State → Prop) : Prop where
  refl : ∀ s, later s s
  trans : ∀ s s' s'', later s s' → later s' s'' → later s s''
  relied : ∀ s s', setting.rely s s' → later s s'

def Triple (setting : Setting Op Answer State) (later : State → State → Prop) (pre : State → Prop)
    (m : Fallible Op Answer E A) (post : A → State → Prop) : Prop :=
  ∀ s, pre s → Safe setting.effect setting.rely setting.guarantee
    (fun r s' => later s s' ∧ ∀ a, r = .ok a → post a s') m.run s

section Rules

variable {setting : Setting Op Answer State} {later later' : State → State → Prop} {pre pre' : State → Prop}
  {m : Fallible Op Answer E A} {post post' : A → State → Prop} {next : A → Fallible Op Answer E B}
  {last : B → State → Prop}

theorem Triple.pure (order : setting.Order later) {a : A} (holds : ∀ s, pre s → post a s) :
    Triple setting later pre (pure a : Fallible Op Answer E A) post := by
  intro s known
  refine ⟨order.refl s, ?_⟩
  rintro _ ⟨⟩
  exact holds s known

theorem Triple.throw (order : setting.Order later) {e : E} :
    Triple setting later pre (throw e : Fallible Op Answer E A) post := by
  intro s known
  refine ⟨order.refl s, ?_⟩
  intro a never
  cases never

theorem Triple.weaken (h : Triple setting later pre m post) (stronger : ∀ s, pre' s → pre s)
    (wider : ∀ s s', later s s' → later' s s') (weaker : ∀ a s, post a s → post' a s) :
    Triple setting later' pre' m post' := by
  intro s known
  refine (h s (stronger s known)).mono (fun _ _ => id) ?_
  intro r s' ends
  exact ⟨wider s s' ends.1, fun a same => weaker a s' (ends.2 a same)⟩

theorem Triple.strengthen (h : Triple setting later pre m post) (stronger : ∀ s, pre' s → pre s) :
    Triple setting later pre' m post := h.weaken stronger (fun _ _ => id) fun _ _ => id

/-- A program from the part of the knowledge that it needs. -/
theorem Triple.needs (pre : State → Prop) (stronger : ∀ s, pre' s → pre s) (h : Triple setting later pre m post) :
    Triple setting later pre' m post := h.strengthen stronger

/-- A fact that does not depend on the state. -/
theorem Triple.known {fact : Prop} (h : fact → Triple setting later pre m post) :
    Triple setting later (fun s => pre s ∧ fact) m post := fun s knows => h knows.2 s knows.1

/-- A program that goes on with what the first one has shown only. -/
theorem Triple.andThen (order : setting.Order later') (h : Triple setting later pre m post)
    (wider : ∀ s s', later s s' → later' s s') (rest : ∀ a, Triple setting later' (post a) (next a) last) :
    Triple setting later' pre (m >>= next) last := by
  intro s known
  refine Safe.bindExcept (h s known) ?_ ?_
  · intro a s' ends
    refine (rest a s' (ends.2 a rfl)).mono (fun _ _ => id) ?_
    intro r s'' further
    exact ⟨order.trans _ _ _ (wider s s' ends.1) further.1, further.2⟩
  · intro e s' ends
    refine ⟨wider s s' ends.1, ?_⟩
    intro a never
    cases never

/-- What lasts stays known. -/
theorem Triple.frame (h : Triple setting later pre m post) (lasts : Lasts later pre) :
    Triple setting later pre m fun a s => pre s ∧ post a s := by
  intro s known
  refine (h s known).mono (fun _ _ => id) ?_
  intro r s' ends
  exact ⟨ends.1, fun a same => ⟨lasts s s' ends.1 known, ends.2 a same⟩⟩

theorem Triple.bind (order : setting.Order later') (h : Triple setting later pre m post)
    (wider : ∀ s s', later s s' → later' s s') (lasts : Lasts later pre)
    (rest : ∀ a, Triple setting later' (fun s => pre s ∧ post a s) (next a) last) :
    Triple setting later' pre (m >>= next) last := (h.frame lasts).andThen order wider rest

/-- Parts of one order. -/
theorem Triple.seq (order : setting.Order later) (h : Triple setting later pre m post) (lasts : Lasts later pre)
    (rest : ∀ a, Triple setting later (fun s => pre s ∧ post a s) (next a) last) :
    Triple setting later pre (m >>= next) last :=
  Triple.bind order h (fun _ _ => id) lasts rest

theorem Triple.attempt (h : Triple setting later pre m post) :
    Triple setting later pre (attempt m) fun r s => ∀ a, r = .ok a → post a s := by
  intro s known
  refine Safe.bind (h s known) ?_
  intro r s' ends
  refine ⟨ends.1, ?_⟩
  rintro _ ⟨⟩
  exact ends.2

/-- One operation. -/
theorem Triple.perform (order : setting.Order later) {op : Op} {post : Answer op → State → Prop}
    (does : ∀ s before, pre s → setting.rely s before → ∀ answer after, setting.effect before op answer after →
      setting.guarantee before after ∧ later before after ∧ post answer after) :
    Triple setting later pre (ExceptT.lift (Program.perform op) : Fallible Op Answer E (Answer op)) post := by
  intro s known before relied answer after effected
  obtain ⟨guaranteed, goesOn, holds⟩ := does s before known relied answer after effected
  refine ⟨guaranteed, order.trans _ _ _ (order.relied _ _ relied) goesOn, ?_⟩
  rintro _ ⟨⟩
  exact holds

theorem Triple.ite {condition : Prop} [Decidable condition] {m' : Fallible Op Answer E A}
    (yes : condition → Triple setting later pre m post) (no : ¬condition → Triple setting later pre m' post) :
    Triple setting later pre (if condition then m else m') post := by
  split
  · exact yes ‹_›
  · exact no ‹_›

end Rules

end PortableCodex.Traces
