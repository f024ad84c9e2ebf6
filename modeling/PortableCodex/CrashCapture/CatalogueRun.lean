import PortableCodex.CrashCapture.CatalogueLaws
import Mathlib.Logic.Relation

/-!
The laws of the catalogue over whole runs.

`Inv` ties the calls to the table and to each other: each claim of a dispatch comes from one call and goes
into at most one, and every row that has left `starting` did so through one. `Inv.step` says that a step
keeps it.
-/

namespace PortableCodex.CrashCapture

open Traces

variable {Value : Type}

/-- The call that made a claim by its dispatch. -/
def Issued (world : World Value) (dispatchClaim : DispatchClaim) (input : Input Value) : Prop :=
  ∃ c call, world.calls c = some call ∧ call.dispatchClaim = some dispatchClaim ∧ call.kind = .claimStarting input

/-- A transition that made a row what it is. -/
def Moved (world : World Value) (row : Row) : Prop :=
  ∃ c call dispatchClaim input change, world.calls c = some call ∧
    call.kind = .transition dispatchClaim input change ∧ row.identities = input.request.identities ∧
    (row.state = .committed → ∃ result, change = .commit result ∧ row.resultJson = some result.resultJson ∧
      row.resultSha256 = some result.resultSha256)

structure Inv (codec : Codec Value) (world : World Value) : Prop where
  unique : world.table.Unique
  fresh : ∀ c, world.nextCall ≤ c → world.calls c = none
  running : ∀ c call program, world.calls c = some call → call.progress = .running program →
    ∃ past, Table.Extends past world.table ∧ Follows codec c call.kind program past
  returned : ∀ c call result, world.calls c = some call → call.progress = .returned result →
    Post codec c call.kind result world.table
  issued : ∀ c call dispatchClaim, world.calls c = some call → call.dispatchClaim = some dispatchClaim →
    dispatchClaim < world.nextClaim ∧ call.progress = .returned (.ok .dispatch)
  issuedOnce : ∀ c d call other dispatchClaim, world.calls c = some call → world.calls d = some other →
    call.dispatchClaim = some dispatchClaim → other.dispatchClaim = some dispatchClaim → c = d
  registered : ∀ dispatchClaim owner input, world.dispatchClaims dispatchClaim = some (owner, input) →
    dispatchClaim < world.nextClaim ∧ Issued world dispatchClaim input
  used : ∀ c call dispatchClaim input change, world.calls c = some call →
    call.kind = .transition dispatchClaim input change →
    dispatchClaim < world.nextClaim ∧ world.dispatchClaims dispatchClaim = none ∧ Issued world dispatchClaim input
  usedOnce : ∀ c d call other dispatchClaim input change input' change', world.calls c = some call →
    world.calls d = some other → call.kind = .transition dispatchClaim input change →
    other.kind = .transition dispatchClaim input' change' → c = d
  moved : ∀ row ∈ world.table, row.state ≠ .starting → Moved world row

theorem inv_initial (codec : Codec Value) : Inv codec .initial where
  unique _ _ _ _ found := by cases found
  fresh _ _ := rfl
  running _ _ _ found := by cases found
  returned _ _ _ found := by cases found
  issued _ _ _ found := by cases found
  issuedOnce _ _ _ _ _ found := by cases found
  registered _ _ _ found := by cases found
  used _ _ _ _ _ found := by cases found
  usedOnce _ _ _ _ _ _ _ _ _ found := by cases found
  moved _ inside := by cases inside

section Steps

variable {codec : Codec Value} {world next : World Value} {c : CallId} {call callNext : Call Value}

/-- The calls stay what they are and keep their claims. -/
def Keeps (world next : World Value) : Prop :=
  ∀ c call, world.calls c = some call → ∃ after, next.calls c = some after ∧ after.kind = call.kind ∧
    ∀ dispatchClaim, call.dispatchClaim = some dispatchClaim → after.dispatchClaim = some dispatchClaim

theorem Keeps.issued (h : Keeps world next) {dispatchClaim : DispatchClaim} {input : Input Value}
    (issued : Issued world dispatchClaim input) : Issued next dispatchClaim input := by
  obtain ⟨c, call, found, claim, kind⟩ := issued
  obtain ⟨after, foundAfter, same, keeps⟩ := h c call found
  exact ⟨c, after, foundAfter, keeps _ claim, same.trans kind⟩

theorem Keeps.moved (h : Keeps world next) {row : Row} (moved : Moved world row) : Moved next row := by
  obtain ⟨c, call, dispatchClaim, input, change, found, kind, rest⟩ := moved
  obtain ⟨after, foundAfter, same, -⟩ := h c call found
  exact ⟨c, after, dispatchClaim, input, change, foundAfter, same.trans kind, rest⟩

theorem calls_setCall (world : World Value) (c d : CallId) (call : Call Value) :
    (world.setCall c call).calls d = if d = c then some call else world.calls d := by
  show Function.update world.calls c (some call) d = _
  split
  · rename_i same
    rw [same, Function.update_self]
  · rename_i other
    exact Function.update_of_ne other _ _

theorem keeps_setCall (found : world.calls c = some call) (kind : callNext.kind = call.kind)
    (claim : ∀ dispatchClaim, call.dispatchClaim = some dispatchClaim → callNext.dispatchClaim = some dispatchClaim) :
    Keeps world (world.setCall c callNext) := by
  intro d other foundOther
  rw [calls_setCall]
  split
  · rename_i same
    subst same
    obtain rfl := Option.some.inj (found.symm.trans foundOther)
    exact ⟨callNext, rfl, kind, claim⟩
  · exact ⟨other, foundOther, rfl, fun _ => id⟩

/-- A claim is used up. -/
theorem Inv.delete (h : Inv codec world) (dispatchClaim : DispatchClaim) : Inv codec (world.delete dispatchClaim) where
  unique := h.unique
  fresh := h.fresh
  running := h.running
  returned := h.returned
  issued := h.issued
  issuedOnce := h.issuedOnce
  registered other owner input found := by
    change Function.update world.dispatchClaims dispatchClaim none other = _ at found
    by_cases same : other = dispatchClaim
    · rw [same, Function.update_self] at found
      cases found
    · rw [Function.update_of_ne same] at found
      exact h.registered other owner input found
  used d other claim input change found kind := by
    obtain ⟨below, gone, issued⟩ := h.used d other claim input change found kind
    refine ⟨below, ?_, issued⟩
    show Function.update world.dispatchClaims dispatchClaim none claim = none
    by_cases same : claim = dispatchClaim
    · rw [same, Function.update_self]
    · rw [Function.update_of_ne same]
      exact gone
  usedOnce := h.usedOnce
  moved := h.moved

/-- A new call, which takes the place of no other. -/
theorem Inv.begin (h : Inv codec world) (owner : Owner) (kind : Kind Value)
    (claims : ∀ dispatchClaim input change, kind = .transition dispatchClaim input change →
      dispatchClaim < world.nextClaim ∧ world.dispatchClaims dispatchClaim = none ∧
      Issued world dispatchClaim input ∧
      ∀ c call input' change', world.calls c = some call → call.kind ≠ .transition dispatchClaim input' change') :
    Inv codec (world.begin owner kind) := by
  have place {d : CallId} {other : Call Value} (found : (world.begin owner kind).calls d = some other) :
      world.calls d = some other ∨ d = world.nextCall ∧
        other = { owner, kind, progress := .running kind.program, dispatchClaim := none } := by
    change (world.setCall _ _).calls d = _ at found
    rw [calls_setCall] at found
    split at found
    · rename_i same
      exact .inr ⟨same, (Option.some.inj found).symm⟩
    · exact .inl found
  have keeps : Keeps world (world.begin owner kind) := by
    intro d other found
    refine ⟨other, ?_, rfl, fun _ => id⟩
    show (world.setCall _ _).calls d = _
    rw [calls_setCall, if_neg]
    · exact found
    · rintro rfl
      rw [h.fresh _ (Nat.le_refl _)] at found
      cases found
  constructor
  · exact h.unique
  · intro d late
    show (world.setCall _ _).calls d = none
    rw [calls_setCall, if_neg (Nat.ne_of_gt late)]
    exact h.fresh d (Nat.le_of_lt late)
  · intro d other program found runs
    rcases place found with before | ⟨rfl, rfl⟩
    · exact h.running d other program before runs
    · obtain rfl := Progress.running.inj runs
      exact ⟨world.table, .refl _, kind.program_safe world.table⟩
  · intro d other result found returns
    rcases place found with before | ⟨rfl, rfl⟩
    · exact h.returned d other result before returns
    · cases returns
  · intro d other claim found holds
    rcases place found with before | ⟨rfl, rfl⟩
    · exact h.issued d other claim before holds
    · cases holds
  · intro d e first second claim foundFirst foundSecond holdsFirst holdsSecond
    rcases place foundFirst with beforeFirst | ⟨rfl, rfl⟩
    · rcases place foundSecond with beforeSecond | ⟨rfl, rfl⟩
      · exact h.issuedOnce d e first second claim beforeFirst beforeSecond holdsFirst holdsSecond
      · cases holdsSecond
    · cases holdsFirst
  · intro claim claimOwner input found
    obtain ⟨below, issued⟩ := h.registered claim claimOwner input found
    exact ⟨below, keeps.issued issued⟩
  · intro d other claim input change found same
    rcases place found with before | ⟨rfl, rfl⟩
    · obtain ⟨below, gone, issued⟩ := h.used d other claim input change before same
      exact ⟨below, gone, keeps.issued issued⟩
    · obtain ⟨below, gone, issued, -⟩ := claims claim input change same
      exact ⟨below, gone, keeps.issued issued⟩
  · intro d e first second claim input change input' change' foundFirst foundSecond kindFirst kindSecond
    rcases place foundFirst with beforeFirst | ⟨rfl, rfl⟩
    · rcases place foundSecond with beforeSecond | ⟨rfl, rfl⟩
      · exact h.usedOnce d e first second _ _ _ _ _ beforeFirst beforeSecond kindFirst kindSecond
      · exact absurd kindFirst ((claims claim input' change' kindSecond).2.2.2 d first _ _ beforeFirst)
    · rcases place foundSecond with beforeSecond | ⟨rfl, rfl⟩
      · exact absurd kindSecond ((claims claim input change kindFirst).2.2.2 e second _ _ beforeSecond)
      · rfl
  · intro row inside state
    exact keeps.moved (h.moved row inside state)

/-- A call that was given a claim. -/
theorem Inv.transition (h : Inv codec world) {dispatchClaim : DispatchClaim} {owner : Owner} {input : Input Value}
    (consumed : world.consumeDispatchClaim dispatchClaim owner = some (input, next)) (change : Transition Value) :
    Inv codec next ∧ Inv codec (next.begin owner (.transition dispatchClaim input change)) := by
  unfold World.consumeDispatchClaim at consumed
  split at consumed
  · rename_i claimOwner registeredInput found
    split at consumed
    · obtain ⟨rfl, rfl⟩ := Prod.mk.inj (Option.some.inj consumed)
      have deleted := h.delete dispatchClaim
      refine ⟨deleted, deleted.begin owner _ ?_⟩
      intro claim claimInput claimChange same
      obtain ⟨rfl, rfl, -⟩ := Kind.transition.inj same
      obtain ⟨below, issued⟩ := h.registered _ _ _ found
      refine ⟨below, Function.update_self _ _ _, issued, ?_⟩
      intro d other input' change' foundOther kind
      rw [(h.used d other _ _ _ foundOther kind).2.1] at found
      cases found
    · cases consumed
  · cases consumed

/-- The rows that a call leaves behind were moved by a transition. -/
theorem Touches.moved {table : Table} (h : Touches c call.kind world.table table) (inv : Inv codec world)
    (found : world.calls c = some call) {row : Row} (inside : row ∈ table) (state : row.state ≠ .starting) :
    Moved world row := by
  generalize same : call.kind = kind at h
  cases h with
  | still => exact inv.moved row inside state
  | @insert input now _ _ =>
    rcases List.mem_append.mp inside with before | last
    · exact inv.moved row before state
    · obtain rfl := List.mem_singleton.mp last
      exact absurd rfl state
  | @move dispatchClaim input change i before after kind foundRow identities takes =>
    rcases List.mem_or_eq_of_mem_set inside with there | rfl
    · exact inv.moved row there state
    · refine ⟨c, call, dispatchClaim, input, change, found, same.trans kind,
        takes.moves.identities.trans identities, fun committed => ?_⟩
      cases change with
      | mark =>
        obtain ⟨-, now, rfl⟩ := takes
        cases committed
      | commit result =>
        obtain ⟨-, now, rfl⟩ := takes
        exact ⟨result, rfl, rfl, rfl⟩

/-- A call that has gone on. -/
structure Resumes (codec : Codec Value) (world : World Value) (c : CallId) (callNext : Call Value) : Prop where
  running : ∀ program, callNext.progress = .running program → Follows codec c callNext.kind program world.table
  returned : ∀ result, callNext.progress = .returned result → Post codec c callNext.kind result world.table

/-- A call that goes on without a claim of its own. -/
theorem Inv.setCall (h : Inv codec world) (found : world.calls c = some call) (kind : callNext.kind = call.kind)
    (unclaimed : call.dispatchClaim = none) (unclaimedNext : callNext.dispatchClaim = none)
    (resumes : Resumes codec world c callNext) : Inv codec (world.setCall c callNext) := by
  have place {d : CallId} {other : Call Value} (foundOther : (world.setCall c callNext).calls d = some other) :
      world.calls d = some other ∧ d ≠ c ∨ d = c ∧ other = callNext := by
    rw [calls_setCall] at foundOther
    split at foundOther
    · rename_i same
      exact .inr ⟨same, (Option.some.inj foundOther).symm⟩
    · rename_i distinct
      exact .inl ⟨foundOther, distinct⟩
  have keeps : Keeps world (world.setCall c callNext) := keeps_setCall found kind fun claim holds => by
    rw [unclaimed] at holds
    cases holds
  constructor
  · exact h.unique
  · intro d late
    rw [calls_setCall, if_neg]
    · exact h.fresh d late
    · rintro rfl
      rw [h.fresh _ late] at found
      cases found
  · intro d other program foundOther runs
    rcases place foundOther with ⟨before, -⟩ | ⟨rfl, rfl⟩
    · exact h.running d other program before runs
    · exact ⟨world.table, .refl _, resumes.running program runs⟩
  · intro d other result foundOther returns
    rcases place foundOther with ⟨before, -⟩ | ⟨rfl, rfl⟩
    · exact h.returned d other result before returns
    · exact resumes.returned result returns
  · intro d other claim foundOther holds
    rcases place foundOther with ⟨before, -⟩ | ⟨rfl, rfl⟩
    · exact h.issued d other claim before holds
    · rw [unclaimedNext] at holds
      cases holds
  · intro d e first second claim foundFirst foundSecond holdsFirst holdsSecond
    rcases place foundFirst with ⟨beforeFirst, -⟩ | ⟨rfl, rfl⟩
    · rcases place foundSecond with ⟨beforeSecond, -⟩ | ⟨rfl, rfl⟩
      · exact h.issuedOnce d e first second claim beforeFirst beforeSecond holdsFirst holdsSecond
      · rw [unclaimedNext] at holdsSecond
        cases holdsSecond
    · rw [unclaimedNext] at holdsFirst
      cases holdsFirst
  · intro claim owner input registered
    obtain ⟨below, issued⟩ := h.registered claim owner input registered
    exact ⟨below, keeps.issued issued⟩
  · intro d other claim input change foundOther same
    rcases place foundOther with ⟨before, -⟩ | ⟨rfl, rfl⟩
    · obtain ⟨below, gone, issued⟩ := h.used d other claim input change before same
      exact ⟨below, gone, keeps.issued issued⟩
    · obtain ⟨below, gone, issued⟩ := h.used d call claim input change found (kind.symm.trans same)
      exact ⟨below, gone, keeps.issued issued⟩
  · intro d e first second claim input change input' change' foundFirst foundSecond kindFirst kindSecond
    rcases place foundFirst with ⟨beforeFirst, -⟩ | ⟨rfl, rfl⟩
    · rcases place foundSecond with ⟨beforeSecond, -⟩ | ⟨rfl, rfl⟩
      · exact h.usedOnce d e first second _ _ _ _ _ beforeFirst beforeSecond kindFirst kindSecond
      · exact h.usedOnce d e first call _ _ _ _ _ beforeFirst found kindFirst (kind.symm.trans kindSecond)
    · rcases place foundSecond with ⟨beforeSecond, -⟩ | ⟨rfl, rfl⟩
      · exact h.usedOnce d e call second _ _ _ _ _ found beforeSecond (kind.symm.trans kindFirst) kindSecond
      · rfl
  · intro row inside state
    exact keeps.moved (h.moved row inside state)

/-- A claim that a call has made. -/
theorem Inv.dispatch (h : Inv codec world) {input : Input Value} (found : world.calls c = some call)
    (kind : call.kind = .claimStarting input) (unclaimed : call.dispatchClaim = none)
    (post : Post codec c call.kind (.ok .dispatch) world.table) : Inv codec (world.dispatch c call input) := by
  have place {d : CallId} {other : Call Value} (foundOther : (world.dispatch c call input).calls d = some other) :
      world.calls d = some other ∧ d ≠ c ∨ d = c ∧ other =
        { call with progress := .returned (.ok .dispatch), dispatchClaim := some world.nextClaim } := by
    change (world.setCall _ _).calls d = _ at foundOther
    rw [calls_setCall] at foundOther
    split at foundOther
    · rename_i same
      exact .inr ⟨same, (Option.some.inj foundOther).symm⟩
    · rename_i distinct
      exact .inl ⟨foundOther, distinct⟩
  have atCall : (world.dispatch c call input).calls c =
      some { call with progress := .returned (.ok .dispatch), dispatchClaim := some world.nextClaim } :=
    Function.update_self _ _ _
  have keeps : Keeps world (world.dispatch c call input) := by
    refine @keeps_setCall _ world c call
      { call with progress := .returned (.ok .dispatch), dispatchClaim := some world.nextClaim } found rfl ?_
    intro claim holds
    rw [unclaimed] at holds
    cases holds
  constructor
  · exact h.unique
  · intro d late
    show (world.setCall _ _).calls d = none
    rw [calls_setCall, if_neg]
    · exact h.fresh d late
    · rintro rfl
      rw [h.fresh _ late] at found
      cases found
  · intro d other program foundOther runs
    rcases place foundOther with ⟨before, -⟩ | ⟨rfl, rfl⟩
    · exact h.running d other program before runs
    · cases runs
  · intro d other result foundOther returns
    rcases place foundOther with ⟨before, -⟩ | ⟨rfl, rfl⟩
    · exact h.returned d other result before returns
    · obtain rfl := Progress.returned.inj returns
      exact post
  · intro d other claim foundOther holds
    rcases place foundOther with ⟨before, -⟩ | ⟨rfl, rfl⟩
    · obtain ⟨below, returns⟩ := h.issued d other claim before holds
      exact ⟨Nat.lt_succ_of_lt below, returns⟩
    · obtain rfl := Option.some.inj holds
      exact ⟨Nat.lt_succ_self _, rfl⟩
  · intro d e first second claim foundFirst foundSecond holdsFirst holdsSecond
    rcases place foundFirst with ⟨beforeFirst, -⟩ | ⟨rfl, rfl⟩
    · rcases place foundSecond with ⟨beforeSecond, -⟩ | ⟨rfl, rfl⟩
      · exact h.issuedOnce d e first second claim beforeFirst beforeSecond holdsFirst holdsSecond
      · obtain rfl := Option.some.inj holdsSecond
        exact absurd (h.issued d first _ beforeFirst holdsFirst).1 (Nat.lt_irrefl _)
    · rcases place foundSecond with ⟨beforeSecond, -⟩ | ⟨rfl, rfl⟩
      · obtain rfl := Option.some.inj holdsFirst
        exact absurd (h.issued e second _ beforeSecond holdsSecond).1 (Nat.lt_irrefl _)
      · rfl
  · intro claim owner claimInput registered
    change Function.update world.dispatchClaims world.nextClaim _ claim = _ at registered
    by_cases same : claim = world.nextClaim
    · rw [same, Function.update_self] at registered
      obtain ⟨rfl, rfl⟩ := Prod.mk.inj (Option.some.inj registered)
      rw [same]
      exact ⟨Nat.lt_succ_self _, c, _, atCall, rfl, kind⟩
    · rw [Function.update_of_ne same] at registered
      obtain ⟨below, issued⟩ := h.registered claim owner claimInput registered
      exact ⟨Nat.lt_succ_of_lt below, keeps.issued issued⟩
  · intro d other claim claimInput change foundOther same
    have before : ∃ old, world.calls d = some old ∧ old.kind = .transition claim claimInput change := by
      rcases place foundOther with ⟨before, -⟩ | ⟨rfl, rfl⟩
      · exact ⟨other, before, same⟩
      · exact ⟨call, found, same⟩
    obtain ⟨old, foundOld, kindOld⟩ := before
    obtain ⟨below, gone, issued⟩ := h.used d old claim claimInput change foundOld kindOld
    refine ⟨Nat.lt_succ_of_lt below, ?_, keeps.issued issued⟩
    show Function.update world.dispatchClaims world.nextClaim _ claim = none
    rw [Function.update_of_ne (Nat.ne_of_lt below)]
    exact gone
  · intro d e first second claim i change i' change' foundFirst foundSecond kindFirst kindSecond
    have old {k : CallId} {after : Call Value} (foundAfter : (world.dispatch c call input).calls k = some after) :
        ∃ before, world.calls k = some before ∧ before.kind = after.kind := by
      rcases place foundAfter with ⟨before, -⟩ | ⟨rfl, rfl⟩
      · exact ⟨after, before, rfl⟩
      · exact ⟨call, found, rfl⟩
    obtain ⟨oldFirst, foundOldFirst, sameFirst⟩ := old foundFirst
    obtain ⟨oldSecond, foundOldSecond, sameSecond⟩ := old foundSecond
    exact h.usedOnce d e oldFirst oldSecond _ _ _ _ _ foundOldFirst foundOldSecond (sameFirst.trans kindFirst)
      (sameSecond.trans kindSecond)
  · intro row inside state
    exact keeps.moved (h.moved row inside state)

/-- A table that a call has touched. -/
theorem Inv.touch (h : Inv codec world) (found : world.calls c = some call) {table : Table}
    (touches : Touches c call.kind world.table table) : Inv codec { world with table } where
  unique := touches.unique h.unique
  fresh := h.fresh
  running d other program foundOther runs := by
    obtain ⟨past, grown, follows⟩ := h.running d other program foundOther runs
    exact ⟨past, grown.trans touches.grows, follows⟩
  returned d other result foundOther returns := (h.returned d other result foundOther returns).mono touches.grows
  issued := h.issued
  issuedOnce := h.issuedOnce
  registered := h.registered
  used := h.used
  usedOnce := h.usedOnce
  moved _ inside state := touches.moved h found inside state

theorem Inv.goOn (h : Inv codec world) (found : world.calls c = some call) (unclaimed : call.dispatchClaim = none)
    {program : Method Value (Result Value)} (follows : Follows codec c call.kind program world.table) :
    Inv codec (world.goOn c call program) := by
  cases program with
  | ask op rest =>
    refine h.setCall found rfl unclaimed unclaimed ⟨?_, ?_⟩
    · intro other same
      obtain rfl := Progress.running.inj same
      exact follows
    · intro result same
      cases same
  | done result =>
    unfold World.goOn
    dsimp only
    split
    · rename_i input kind
      exact h.dispatch found kind unclaimed follows
    · refine h.setCall found rfl unclaimed unclaimed ⟨?_, ?_⟩
      · intro other same
        cases same
      · intro other same
        obtain rfl := Progress.returned.inj same
        exact follows

theorem consumeDispatchClaim_extends {dispatchClaim : DispatchClaim} {owner : Owner} {input : Input Value}
    (consumed : world.consumeDispatchClaim dispatchClaim owner = some (input, next)) :
    world.table.Extends next.table := by
  unfold World.consumeDispatchClaim at consumed
  split at consumed
  · split at consumed
    · obtain ⟨-, rfl⟩ := Prod.mk.inj (Option.some.inj consumed)
      exact .refl _
    · cases consumed
  · cases consumed

/-- A step keeps the invariant and the rows. -/
theorem Inv.step (h : Inv codec world) {event : Event Value} (step : Step codec world event next) :
    Inv codec next ∧ world.table.Extends next.table := by
  cases step with
  | claimStarting normalized =>
    refine ⟨h.begin _ _ ?_, .refl _⟩
    intro _ _ _ same
    cases same
  | readCommitted normalized =>
    refine ⟨h.begin _ _ ?_, .refl _⟩
    intro _ _ _ same
    cases same
  | markUncertain consumed =>
    have grows := consumeDispatchClaim_extends consumed
    exact ⟨(h.transition consumed _).2, grows⟩
  | commitResult consumed normalized =>
    have grows := consumeDispatchClaim_extends consumed
    exact ⟨(h.transition consumed _).2, grows⟩
  | invalidResult consumed refused =>
    exact ⟨(h.transition consumed .mark).1, consumeDispatchClaim_extends consumed⟩
  | @transaction c call op rest answer after found runs ran =>
    obtain ⟨past, grown, follows⟩ := h.running c call _ found runs
    obtain ⟨touches, goesOn⟩ := follows world.table grown answer after ran
    have unclaimed : call.dispatchClaim = none := by
      cases claim : call.dispatchClaim with
      | none => rfl
      | some dispatchClaim =>
        rw [(h.issued c call dispatchClaim found claim).2] at runs
        cases runs
    refine ⟨(h.touch found touches).goOn found unclaimed goesOn, ?_⟩
    have table : ({ world with table := after }.goOn c call (rest answer)).table = after := by
      unfold World.goOn
      split
      · rfl
      · split <;> rfl
    rw [table]
    exact touches.grows

theorem inv_of_run {trace : List (Event Value)} (run : Run (catalogues codec) trace world) : Inv codec world := by
  refine @Run.invariant _ _ _ (fun _ world => Inv codec world) ?_ ?_ _ _ run
  · rintro _ rfl
    exact inv_initial codec
  · rintro _ _ _ _ h ⟨event, step, -⟩
    exact (h.step step).1

/-! ### The laws -/

/-- Any number of steps later. -/
def Later (codec : Codec Value) : World Value → World Value → Prop :=
  Relation.ReflTransGen fun world next => ∃ event, Step codec world event next

theorem Inv.later (h : Inv codec world) (later : Later codec world next) :
    Inv codec next ∧ world.table.Extends next.table := by
  induction later with
  | refl => exact ⟨h, .refl _⟩
  | tail _ step ih =>
    obtain ⟨event, step⟩ := step
    obtain ⟨inv, grows⟩ := ih
    obtain ⟨invNext, growsOn⟩ := inv.step step
    exact ⟨invNext, grows.trans growsOn⟩

/-- A call that has returned a dispatch with a claim. -/
structure Dispatched (world : World Value) (c : CallId) (dispatchClaim : DispatchClaim) (input : Input Value) : Prop where
  call : ∃ call, world.calls c = some call ∧ call.kind = .claimStarting input ∧
    call.progress = .returned (.ok .dispatch) ∧ call.dispatchClaim = some dispatchClaim

structure CatalogueLaws (codec : Codec Value) (world : World Value) : Prop where
  /-- Of all claims that share an identity, one call is told to dispatch. -/
  dispatchOnce : ∀ c d call other input otherInput, world.calls c = some call → world.calls d = some other →
    call.kind = .claimStarting input → other.kind = .claimStarting otherInput →
    input.request.identities.Shares otherInput.request.identities →
    call.progress = .returned (.ok .dispatch) → other.progress = .returned (.ok .dispatch) → c = d
  /-- Rows stay, and change only as `Row.Moves` says. -/
  rows : ∀ later, Later codec world later → world.table.Extends later.table
  /-- The claim of a transition was made by a dispatch of the same input. -/
  claims : ∀ c call dispatchClaim input change, world.calls c = some call →
    call.kind = .transition dispatchClaim input change → ∃ d, Dispatched world d dispatchClaim input
  claimOnce : ∀ c d call other dispatchClaim input change otherInput otherChange, world.calls c = some call →
    world.calls d = some other → call.kind = .transition dispatchClaim input change →
    other.kind = .transition dispatchClaim otherInput otherChange → c = d
  /-- A row has changed only through the claim of the dispatch that inserted it. -/
  effective : ∀ row ∈ world.table, row.state ≠ .starting → ∃ c call dispatchClaim input change,
    world.calls c = some call ∧ call.kind = .transition dispatchClaim input change ∧
    row.identities = input.request.identities ∧ Dispatched world row.claimant dispatchClaim input ∧
    (row.state = .committed → ∃ result, change = .commit result ∧ row.resultJson = some result.resultJson ∧
      row.resultSha256 = some result.resultSha256)
  /-- A committed projection is the one of a committed row of the request. -/
  committed : ∀ c call providerBinding result, world.calls c = some call →
    call.progress = .returned (.ok (.committed providerBinding result)) →
    ∃ row ∈ world.table, ∃ observed stored, row.state = .committed ∧ row.normalizedRow codec = some observed ∧
      observed.rowMatchesRequest call.kind.request = true ∧
      call.kind.requireBinding.all observed.rowMatchesBinding = true ∧ observed.result = some stored ∧
      providerBinding = observed.binding.providerBinding ∧ result = stored.result
  /-- Committed projections that share an identity are the same. -/
  agree : ∀ c d call other providerBinding result providerBinding' result', world.calls c = some call →
    world.calls d = some other → call.kind.request.identities.Shares other.kind.request.identities →
    call.progress = .returned (.ok (.committed providerBinding result)) →
    other.progress = .returned (.ok (.committed providerBinding' result')) →
    providerBinding = providerBinding' ∧ result = result'

section Laws

variable {kind : Kind Value} {observed : Observed Value} {row : Row}

theorem identities_of_normalizedRow (h : row.normalizedRow codec = some observed) :
    observed.request.identities = row.identities := by
  obtain ⟨request, -, rest⟩ := Option.bind_eq_some_iff.mp h
  obtain ⟨binding, -, rest⟩ := Option.bind_eq_some_iff.mp rest
  split at rest
  · rename_i fits
    obtain ⟨result, -, same⟩ := Option.bind_eq_some_iff.mp rest
    obtain rfl := Option.some.inj same
    exact fits.2.1.1
  · cases rest

theorem identities_of_rowMatchesRequest {request : Request Value}
    (h : observed.rowMatchesRequest request = true) : observed.request.identities = request.identities := by
  unfold Observed.rowMatchesRequest at h
  simp only [Bool.and_eq_true, decide_eq_true_eq] at h
  exact h.1.1.1.1.1.1

theorem Inv.dispatched (h : Inv codec world) {dispatchClaim : DispatchClaim} {input : Input Value}
    (issued : Issued world dispatchClaim input) : ∃ c, Dispatched world c dispatchClaim input ∧
      ∃ row ∈ world.table, row.claimant = c ∧ row.identities = input.request.identities := by
  obtain ⟨c, call, found, claim, kind⟩ := issued
  have returns := (h.issued c call dispatchClaim found claim).2
  obtain ⟨other, same, row, inside, claimant, identities⟩ := h.returned c call _ found returns
  obtain rfl := Kind.claimStarting.inj (kind.symm.trans same)
  exact ⟨c, ⟨call, found, kind, returns, claim⟩, row, inside, claimant, identities⟩

end Laws

end Steps

theorem catalogueLaws {codec : Codec Value} {trace : List (Event Value)} {world : World Value}
    (run : Run (catalogues codec) trace world) : CatalogueLaws codec world := by
  have inv := inv_of_run run
  constructor
  · intro c d call other input otherInput found foundOther kind otherKind shares returns otherReturns
    obtain ⟨input', same, row, inside, claimant, identities⟩ := inv.returned c call _ found returns
    obtain ⟨otherInput', otherSame, otherRow, otherInside, otherClaimant, otherIdentities⟩ :=
      inv.returned d other _ foundOther otherReturns
    obtain rfl := Kind.claimStarting.inj (kind.symm.trans same)
    obtain rfl := Kind.claimStarting.inj (otherKind.symm.trans otherSame)
    rw [← identities, ← otherIdentities] at shares
    obtain rfl := inv.unique.eq inside otherInside shares
    exact claimant.symm.trans otherClaimant
  · intro later steps
    exact (inv.later steps).2
  · intro c call dispatchClaim input change found kind
    obtain ⟨d, dispatched, -⟩ := inv.dispatched (inv.used c call dispatchClaim input change found kind).2.2
    exact ⟨d, dispatched⟩
  · intro c d call other dispatchClaim input change otherInput otherChange
    exact inv.usedOnce c d call other dispatchClaim input change otherInput otherChange
  · intro row inside state
    obtain ⟨c, call, dispatchClaim, input, change, found, kind, identities, recorded⟩ := inv.moved row inside state
    obtain ⟨d, dispatched, claimed, claimedInside, claimant, claimedIdentities⟩ :=
      inv.dispatched (inv.used c call dispatchClaim input change found kind).2.2
    have shares : row.identities.Shares claimed.identities := by
      rw [identities, claimedIdentities]
      exact .refl _
    obtain rfl := inv.unique.eq inside claimedInside shares
    obtain rfl := claimant
    exact ⟨c, call, dispatchClaim, input, change, found, kind, identities, dispatched, recorded⟩
  · intro c call providerBinding result found returns
    obtain ⟨observed, stored, ⟨row, inside, reads, fits, fitsBinding⟩, state, rest⟩ :=
      inv.returned c call _ found returns
    exact ⟨row, inside, observed, stored, (state_of_normalizedRow reads).symm.trans state, reads, fits, fitsBinding, rest⟩
  · intro c d call other providerBinding result providerBinding' result' found foundOther shares returns otherReturns
    obtain ⟨observed, stored, ⟨row, inside, reads, fits, -⟩, -, resultIs, bindingSame, resultSame⟩ :=
      inv.returned c call _ found returns
    obtain ⟨observed', stored', ⟨row', inside', reads', fits', -⟩, -, resultIs', bindingSame', resultSame'⟩ :=
      inv.returned d other _ foundOther otherReturns
    have sameRow : row.identities.Shares row'.identities := by
      rw [← identities_of_normalizedRow reads, ← identities_of_normalizedRow reads',
        identities_of_rowMatchesRequest fits, identities_of_rowMatchesRequest fits']
      exact shares
    obtain rfl := inv.unique.eq inside inside' sameRow
    obtain rfl := Option.some.inj (reads.symm.trans reads')
    obtain rfl := Option.some.inj (resultIs.symm.trans resultIs')
    exact ⟨bindingSame.trans bindingSame'.symm, resultSame.trans resultSame'.symm⟩

/-! ### A run -/

/-- Requests that are their own identities, and texts that are their own values and hashes. -/
def echo : Codec Js.JsString where
  assertAtomicCrashCaptureRequest value := some {
    value := value
    identities := { captureAttemptId := value, operationId := value, checkpointId := value, artifactId := value }
    contractVersion := contractVersion
    backendId := []
    sessionId := []
    storageId := []
    sourceFencingEpoch := [] }
  assertAtomicCrashCaptureResult value _ := some value
  canonicalJsonObject value _ := some (value, value)
  sha256 := id
  jsonb := id

/-- A capture that is claimed, dispatched and committed. -/
theorem run_firstCommit : ∃ trace world call, Run (catalogues echo) trace world ∧ world.calls 1 = some call ∧
    call.progress = .returned (.ok (.committed [2] [3])) :=
  ⟨_, _, _,
    .step (.step (.step (.step (.start rfl)
      ⟨_, @Step.claimStarting _ echo _ 0 [1] [2] _ rfl, rfl⟩)
      ⟨_, @Step.transaction _ _ _ 0 _ (.claim _) _ (.ok Attempt.inserted) _ rfl rfl ⟨0, rfl⟩, rfl⟩)
      ⟨_, @Step.commitResult _ _ _ 0 0 [3] _ _ _ rfl rfl, rfl⟩)
      ⟨_, @Step.transaction _ _ _ 1 _ (.transition _ _) _ (.ok (Projection.committed [2] [3])) _ rfl rfl ⟨0, rfl⟩, rfl⟩,
    rfl, rfl⟩

theorem catalogueLaws_firstCommit : ∃ trace world, Run (catalogues echo) trace world ∧
    ∃ row ∈ world.table, row.state = .committed := by
  obtain ⟨trace, world, call, run, found, returns⟩ := run_firstCommit
  obtain ⟨row, inside, -, -, state, -⟩ := (catalogueLaws run).committed 1 call _ _ found returns
  exact ⟨trace, world, run, row, inside, state⟩

end PortableCodex.CrashCapture
