import PortableCodex.CrashCapture.Calls

/-!
What the catalogue promises, in every run of any number of catalogues over one table.

`Row.Moves` says how a row can change, and `Table.Extends` that rows only change so and stay where they
are. `Touches` says what one transaction of a call can do to the table. What a call returns is shown by a
row (`Post`), and stays true while the table extends, so a call can be followed while the others go on.
-/

namespace PortableCodex.CrashCapture

open Traces

variable {Value : Type}

/-! ### Rows over time -/

/-- The changes of a row: `starting` to `uncertain` to `committed`, or straight to `committed`. -/
structure Row.Moves (row next : Row) : Prop where
  fixed : { next with
    state := row.state
    resultJson := row.resultJson
    resultSha256 := row.resultSha256
    uncertainAt := row.uncertainAt
    committedAt := row.committedAt } = row
  committed : row.state = .committed → next = row
  uncertain : row.state = .uncertain → next.state ≠ .starting

namespace Row.Moves

variable {row next last : Row}

theorem refl (row : Row) : row.Moves row where
  fixed := rfl
  committed _ := rfl
  uncertain state := by
    rw [state]
    intro never
    cases never

theorem identities (h : row.Moves next) : next.identities = row.identities := by
  have same := congrArg Row.identities h.fixed
  exact same

theorem claimant (h : row.Moves next) : next.claimant = row.claimant := by
  have same := congrArg Row.claimant h.fixed
  exact same

theorem trans (first : row.Moves next) (second : next.Moves last) : row.Moves last where
  fixed := by
    have same := first.fixed
    rw [← second.fixed] at same
    exact same
  committed state := by
    obtain rfl := first.committed state
    exact second.committed state
  uncertain state := by
    have moved := first.uncertain state
    cases after : next.state with
    | starting => exact absurd after moved
    | uncertain => exact second.uncertain after
    | committed =>
      rw [second.committed after, after]
      intro never
      cases never

end Row.Moves

/-- What a transition makes of a row. -/
def Transition.Takes : Transition Value → Row → Row → Prop
  | .mark, row, next => row.state = .starting ∧ ∃ now, next = row.toUncertain now
  | .commit result, row, next => row.state ≠ .committed ∧ ∃ now, next = row.toCommitted result now

theorem Transition.Takes.moves {transition : Transition Value} {row next : Row} (h : transition.Takes row next) :
    row.Moves next := by
  cases transition with
  | mark =>
    obtain ⟨state, now, rfl⟩ := h
    refine ⟨rfl, fun other => ?_, fun other => ?_⟩
    · rw [state] at other
      cases other
    · rw [state] at other
      cases other
  | commit result =>
    obtain ⟨state, now, rfl⟩ := h
    refine ⟨rfl, fun other => absurd other state, fun _ never => ?_⟩
    cases never

namespace Table

/-- The rows of a table are still there, in their places. -/
def Extends (table later : Table) : Prop :=
  ∀ (i : Nat) (row : Row), table[i]? = some row → ∃ next, later[i]? = some next ∧ row.Moves next

/-- The four unique columns. -/
def Unique (table : Table) : Prop :=
  ∀ (i j : Nat) (row other : Row), table[i]? = some row → table[j]? = some other → row.identities.Shares other.identities → i = j

theorem Extends.refl (table : Table) : Extends table table := fun _ row found => ⟨row, found, .refl row⟩

theorem Extends.trans {table next later : Table} (first : table.Extends next) (second : next.Extends later) :
    table.Extends later := by
  intro i row found
  obtain ⟨moved, foundMoved, moves⟩ := first i row found
  obtain ⟨last, foundLast, movesOn⟩ := second i moved foundMoved
  exact ⟨last, foundLast, moves.trans movesOn⟩

theorem Extends.mem {table later : Table} (h : table.Extends later) {row : Row} (inside : row ∈ table) :
    ∃ next ∈ later, row.Moves next := by
  obtain ⟨i, found⟩ := List.getElem?_of_mem inside
  obtain ⟨next, foundNext, moves⟩ := h i row found
  exact ⟨next, List.mem_of_getElem? foundNext, moves⟩

theorem Unique.eq {table : Table} (h : table.Unique) {row other : Row} (inside : row ∈ table)
    (otherInside : other ∈ table) (shares : row.identities.Shares other.identities) : row = other := by
  obtain ⟨i, found⟩ := List.getElem?_of_mem inside
  obtain ⟨j, foundOther⟩ := List.getElem?_of_mem otherInside
  obtain rfl := h i j row other found foundOther shares
  exact Option.some.inj (found.symm.trans foundOther)

end Table

theorem Identities.Shares.refl (a : Identities) : a.Shares a := .inl rfl

theorem Identities.Shares.symm {a b : Identities} (h : a.Shares b) : b.Shares a :=
  h.imp Eq.symm (Or.imp Eq.symm (Or.imp Eq.symm Eq.symm))

/-- What one transaction of a call does to the table. -/
inductive Touches (c : CallId) (kind : Kind Value) (table : Table) : Table → Prop where
  | still : Touches c kind table table
  | insert {input now} : kind = .claimStarting input →
      (∀ row ∈ table, ¬ row.identities.Shares input.request.identities) →
      Touches c kind table (table ++ [.starting c input now])
  | move {dispatchClaim input transition i row next} : kind = .transition dispatchClaim input transition →
      table[i]? = some row → row.identities = input.request.identities → transition.Takes row next →
      Touches c kind table (table.set i next)

namespace Touches

variable {c : CallId} {kind : Kind Value} {table after : Table}

theorem grows (h : Touches c kind table after) : table.Extends after := by
  cases h with
  | still => exact .refl table
  | insert _ _ =>
    intro i row found
    refine ⟨row, ?_, .refl row⟩
    rw [List.getElem?_append_left (List.getElem?_eq_some_iff.mp found).1]
    exact found
  | @move _ _ _ i row next _ found _ takes =>
    intro j other foundOther
    by_cases same : i = j
    · subst same
      obtain rfl := Option.some.inj (found.symm.trans foundOther)
      refine ⟨next, ?_, takes.moves⟩
      rw [List.getElem?_set_self (List.getElem?_eq_some_iff.mp found).1]
    · refine ⟨other, ?_, .refl other⟩
      rw [List.getElem?_set_ne same]
      exact foundOther

theorem unique (h : Touches c kind table after) (unique : table.Unique) : after.Unique := by
  cases h with
  | still => exact unique
  | @insert input now _ free =>
    -- the new row is last, and shares nothing with the rows before it
    have place {k : Nat} {row : Row} (found : (table ++ [Row.starting c input now])[k]? = some row) :
        table[k]? = some row ∨ k = table.length ∧ row = .starting c input now := by
      by_cases before : k < table.length
      · rw [List.getElem?_append_left before] at found
        exact .inl found
      · rw [List.getElem?_append_right (Nat.le_of_not_lt before)] at found
        have within := (List.getElem?_eq_some_iff.mp found).1
        have atLast : k = table.length := by
          rw [List.length_singleton] at within
          omega
        rw [atLast, Nat.sub_self] at found
        exact .inr ⟨atLast, (Option.some.inj found).symm⟩
    intro i j row other found foundOther shares
    rcases place found with before | ⟨atLast, rfl⟩
    · rcases place foundOther with otherBefore | ⟨_, rfl⟩
      · exact unique i j row other before otherBefore shares
      · exact absurd shares (free row (List.mem_of_getElem? before))
    · rcases place foundOther with otherBefore | ⟨otherLast, _⟩
      · exact absurd shares.symm (free other (List.mem_of_getElem? otherBefore))
      · exact atLast.trans otherLast.symm
  | @move _ _ _ i row next _ found _ takes =>
    -- every row of the table after it has the identities of the row that was there
    have before {k : Nat} {moved : Row} (foundMoved : (table.set i next)[k]? = some moved) :
        ∃ old, table[k]? = some old ∧ moved.identities = old.identities := by
      by_cases same : i = k
      · subst same
        rw [List.getElem?_set_self (List.getElem?_eq_some_iff.mp found).1] at foundMoved
        obtain rfl := Option.some.inj foundMoved
        exact ⟨row, found, takes.moves.identities⟩
      · rw [List.getElem?_set_ne same] at foundMoved
        exact ⟨moved, foundMoved, rfl⟩
    intro j k first second foundFirst foundSecond shares
    obtain ⟨firstOld, foundFirstOld, sameFirst⟩ := before foundFirst
    obtain ⟨secondOld, foundSecondOld, sameSecond⟩ := before foundSecond
    rw [sameFirst, sameSecond] at shares
    exact unique j k firstOld secondOld foundFirstOld foundSecondOld shares

end Touches

/-! ### What a row shows -/

/-- A row of the table is the one of a request, and reads as `observed`. -/
def Seen (codec : Codec Value) (kind : Kind Value) (observed : Observed Value) (table : Table) : Prop :=
  ∃ row ∈ table, row.normalizedRow codec = some observed ∧ observed.rowMatchesRequest kind.request = true ∧
    kind.requireBinding.all observed.rowMatchesBinding = true

/-- What a result says of the table. -/
def Post (codec : Codec Value) (c : CallId) (kind : Kind Value) : Result Value → Table → Prop
  | .ok .dispatch, table => ∃ input, kind = .claimStarting input ∧
      ∃ row ∈ table, row.claimant = c ∧ row.identities = input.request.identities
  | .ok (.committed providerBinding result), table => ∃ observed stored, Seen codec kind observed table ∧
      observed.state = .committed ∧ observed.result = some stored ∧
      providerBinding = observed.binding.providerBinding ∧ result = stored.result
  | _, _ => True

section Rows

variable {codec : Codec Value} {c : CallId} {kind : Kind Value} {observed : Observed Value} {table later : Table}

theorem state_of_normalizedRow {row : Row} (h : row.normalizedRow codec = some observed) :
    observed.state = row.state := by
  obtain ⟨request, -, rest⟩ := Option.bind_eq_some_iff.mp h
  obtain ⟨binding, -, rest⟩ := Option.bind_eq_some_iff.mp rest
  split at rest
  · obtain ⟨result, -, same⟩ := Option.bind_eq_some_iff.mp rest
    obtain rfl := Option.some.inj same
    rfl
  · cases rest

theorem Post.mono {result : Result Value} (h : Post codec c kind result table) (grows : table.Extends later) :
    Post codec c kind result later := by
  match result with
  | .ok .dispatch =>
    obtain ⟨input, same, row, inside, claimant, identities⟩ := h
    obtain ⟨next, nextInside, moves⟩ := grows.mem inside
    exact ⟨input, same, next, nextInside, moves.claimant.trans claimant, moves.identities.trans identities⟩
  | .ok (.committed _ _) =>
    obtain ⟨observed, stored, ⟨row, inside, reads, fits⟩, committed, rest⟩ := h
    obtain ⟨next, nextInside, moves⟩ := grows.mem inside
    obtain rfl := moves.committed ((state_of_normalizedRow reads).symm.trans committed)
    exact ⟨observed, stored, ⟨next, nextInside, reads, fits⟩, committed, rest⟩
  | .ok .unknown => exact trivial
  | .ok .uncertain => exact trivial
  | .error _ => exact trivial

/-- A row that is seen and committed shows its projection. -/
theorem Seen.committedProjection (seen : Seen codec kind observed table) :
    Post codec c kind (CrashCapture.committedProjection observed) table := by
  unfold CrashCapture.committedProjection
  split
  · rename_i stored state result
    exact ⟨observed, stored, seen, state, result, rfl, rfl⟩
  · exact trivial

theorem Seen.observedProjection (seen : Seen codec kind observed table) :
    Post codec c kind (CrashCapture.observedProjection (some observed)) table := by
  unfold CrashCapture.observedProjection
  dsimp only
  split
  · exact seen.committedProjection
  · exact trivial

theorem observe_seen (h : observe codec table kind.request kind.requireBinding = .ok (some observed)) :
    Seen codec kind observed table := by
  simp only [observe, selectRows] at h
  split at h
  · change exactObservedRow codec _ _ _ = _ at h
    simp only [exactObservedRow] at h
    split at h
    · cases h
    · rename_i row only
      split at h
      · cases h
      · rename_i other reads
        split at h
        · rename_i fits
          obtain rfl := Option.some.inj (Except.ok.inj h)
          rw [Bool.and_eq_true] at fits
          have inside : row ∈ table.filter fun row => row.identities.Shares kind.request.identities := by
            rw [only]
            exact List.mem_singleton_self row
          exact ⟨row, (List.mem_filter.mp inside).1, reads, fits⟩
        · cases h
    · cases h
  · cases h

end Rows

/-! ### Transactions -/

theorem update_eq_some {condition : Row → Bool} {change : Row → Row} {table after : Table} {updated : Row}
    (h : update condition change table = some (updated, after)) :
    ∃ (i : Nat) (row : Row), table[i]? = some row ∧ condition row = true ∧ updated = change row ∧
      after = table.set i updated := by
  induction table generalizing after with
  | nil => cases h
  | cons row rows ih =>
    unfold update at h
    split at h
    · rename_i meets
      obtain ⟨rfl, rfl⟩ := Prod.mk.inj (Option.some.inj h)
      exact ⟨0, row, rfl, meets, rfl, rfl⟩
    · obtain ⟨⟨other, rest⟩, found, same⟩ := Option.map_eq_some_iff.mp h
      obtain ⟨rfl, rfl⟩ := Prod.mk.inj same
      obtain ⟨i, before, inside, meets, changed, rfl⟩ := ih found
      exact ⟨i + 1, before, inside, meets, changed, rfl⟩

/-- The transactions that a call makes. -/
def Kind.Asks (kind : Kind Value) : Op Value → Prop
  | .claim input => kind = .claimStarting input
  | .read request requireBinding => request = kind.request ∧ requireBinding = kind.requireBinding
  | .transition input change => ∃ dispatchClaim, kind = .transition dispatchClaim input change

/-- What an answer says of the table. -/
def Holds (codec : Codec Value) (c : CallId) (kind : Kind Value) : (op : Op Value) → Answer op → Table → Prop
  | .claim _, .ok attempt, table => Post codec c kind (attempted attempt) table
  | .read _ _, .ok (some observed), table => Seen codec kind observed table
  | .transition _ _, .ok projection, table => Post codec c kind (.ok projection) table
  | _, _, _ => True

section Transactions

variable {codec : Codec Value} {c : CallId} {kind : Kind Value} {before after : Table} {now : Timestamp}

theorem claimTransaction_spec {input : Input Value} {attempt : Attempt Value} (asks : kind = .claimStarting input)
    (h : claimTransaction codec c input now before = .ok (attempt, after)) :
    Touches c kind before after ∧ Post codec c kind (attempted attempt) after := by
  unfold claimTransaction at h
  split at h
  · split at h
    · cases h
    · cases h
    · rename_i observed observes
      split at h
      · rename_i projection projects
        obtain ⟨rfl, rfl⟩ := Prod.mk.inj (Except.ok.inj h)
        refine ⟨.still, ?_⟩
        subst asks
        have post := (@observe_seen _ codec (.claimStarting input) _ _ observes).observedProjection (c := c)
        rwa [projects] at post
      · cases h
  · rename_i free
    split at h
    · obtain ⟨rfl, rfl⟩ := Prod.mk.inj (Except.ok.inj h)
      refine ⟨.insert asks fun row inside shares => free ⟨row, inside, shares⟩, ?_⟩
      exact ⟨input, asks, _, List.mem_append_right _ (List.mem_singleton_self _), rfl, rfl⟩
    · cases h

theorem identities_of_transitionValues {input : Input Value} {row : Row} (h : transitionValues input row = true) :
    row.identities = input.request.identities := by
  unfold transitionValues at h
  rw [Bool.and_eq_true, Bool.and_eq_true] at h
  exact of_decide_eq_true h.1.1

theorem markUncertainTransaction_spec {input : Input Value} {dispatchClaim : DispatchClaim}
    {projection : Projection Value} (asks : kind = .transition dispatchClaim input .mark)
    (h : markUncertainTransaction codec input now before = .ok (projection, after)) :
    Touches c kind before after ∧ Post codec c kind (.ok projection) after := by
  unfold markUncertainTransaction at h
  split at h
  · rename_i updated rest updates
    obtain ⟨i, row, found, meets, rfl, rfl⟩ := update_eq_some updates
    rw [Bool.and_eq_true] at meets
    split at h
    · split at h
      · split at h
        · obtain ⟨rfl, rfl⟩ := Prod.mk.inj (Except.ok.inj h)
          refine ⟨.move asks found (identities_of_transitionValues meets.1) ?_, trivial⟩
          exact ⟨of_decide_eq_true meets.2, now, rfl⟩
        · cases h
      · cases h
    · cases h
  · split at h
    · split at h
      · obtain ⟨rfl, rfl⟩ := Prod.mk.inj (Except.ok.inj h)
        exact ⟨.still, trivial⟩
      · cases h
    · cases h
    · cases h

theorem commitResultTransaction_spec {input : Input Value} {dispatchClaim : DispatchClaim}
    {result : StoredResult Value} {projection : Projection Value}
    (asks : kind = .transition dispatchClaim input (.commit result))
    (h : commitResultTransaction codec input result now before = .ok (projection, after)) :
    Touches c kind before after ∧ Post codec c kind (.ok projection) after := by
  unfold commitResultTransaction at h
  split at h
  · rename_i updated rest updates
    obtain ⟨i, row, found, meets, rfl, rfl⟩ := update_eq_some updates
    rw [Bool.and_eq_true] at meets
    split at h
    · split at h
      · rename_i observed reads
        split at h
        · rename_i fits
          rw [Bool.and_eq_true, Bool.and_eq_true] at fits
          split at h
          · rename_i shown projects
            obtain ⟨rfl, rfl⟩ := Prod.mk.inj (Except.ok.inj h)
            refine ⟨.move asks found (identities_of_transitionValues meets.1) ?_, ?_⟩
            · exact ⟨of_decide_eq_true meets.2, now, rfl⟩
            · have inside : row.toCommitted result now ∈ before.set i (row.toCommitted result now) :=
                List.mem_set (List.getElem?_eq_some_iff.mp found).1 _
              have seen : Seen codec kind observed (before.set i (row.toCommitted result now)) := by
                subst asks
                exact ⟨_, inside, reads, fits.1.1, fits.1.2⟩
              have post := seen.committedProjection (c := c)
              rwa [projects] at post
          · cases h
        · cases h
      · cases h
    · cases h
  · split at h
    · rename_i observed observes
      split at h
      · split at h
        · split at h
          · rename_i shown projects
            obtain ⟨rfl, rfl⟩ := Prod.mk.inj (Except.ok.inj h)
            refine ⟨.still, ?_⟩
            subst asks
            have seen := @observe_seen _ codec (.transition dispatchClaim input (.commit result)) _ _ observes
            have post := seen.committedProjection (c := c)
            rwa [projects] at post
          · cases h
        · cases h
      · cases h
    · cases h
    · cases h

theorem body_spec {op : Op Value} {value : op.Result} (asks : kind.Asks op)
    (h : body codec c now op before = .ok (value, after)) :
    Touches c kind before after ∧ Holds codec c kind op (.ok value) after := by
  match op with
  | .claim input => exact claimTransaction_spec asks h
  | .read request requireBinding =>
    obtain ⟨rfl, rfl⟩ := asks
    change readRowTransaction codec kind.request kind.requireBinding before = _ at h
    unfold readRowTransaction at h
    split at h
    · rename_i row observes
      obtain ⟨rfl, rfl⟩ := Prod.mk.inj (Except.ok.inj h)
      refine ⟨.still, ?_⟩
      cases row with
      | none => exact trivial
      | some observed => exact observe_seen observes
    · cases h
  | .transition input .mark =>
    obtain ⟨dispatchClaim, same⟩ := asks
    exact markUncertainTransaction_spec same h
  | .transition input (.commit result) =>
    obtain ⟨dispatchClaim, same⟩ := asks
    exact commitResultTransaction_spec same h

theorem runSerializable_spec {op : Op Value} {answer : Answer op} (asks : kind.Asks op)
    (h : runSerializable codec c before op answer after) :
    Touches c kind before after ∧ Holds codec c kind op answer after := by
  obtain ⟨now, h⟩ := h
  match answer with
  | .ok value => exact body_spec asks h
  | .error (.catalogue code) =>
    obtain ⟨rfl, -⟩ := h
    exact ⟨.still, by cases op <;> trivial⟩
  | .error .visibilityRetry =>
    obtain ⟨rfl, -⟩ := h
    exact ⟨.still, by cases op <;> trivial⟩
  | .error (.store commitState) =>
    rcases h with rfl | ⟨-, value, took⟩
    · exact ⟨.still, by cases op <;> trivial⟩
    · exact ⟨(body_spec asks took).1, by cases op <;> trivial⟩

end Transactions

/-! ### Methods -/

/-- A method of a call from a table on, whatever the other calls do to the table. -/
abbrev Follows (codec : Codec Value) (c : CallId) (kind : Kind Value) (program : Method Value (Result Value))
    (table : Table) : Prop :=
  Safe (runSerializable codec c) Table.Extends (Touches c kind) (Post codec c kind) program table

section Methods

variable {codec : Codec Value} {c : CallId} {kind : Kind Value} {table : Table}

theorem safe_perform {op : Op Value} (asks : kind.Asks op) (table : Table) :
    Safe (runSerializable codec c) Table.Extends (Touches c kind) (Holds codec c kind op) (Program.perform op) table :=
  fun _ _ _ _ effected => runSerializable_spec asks effected

theorem claimAgain_safe {input : Input Value} {error : StoreError} (asks : kind = .claimStarting input) :
    Follows codec c kind (claimAgain input error) table := by
  have reads : kind.Asks (.read input.request (some input.binding)) := by
    subst asks
    exact ⟨rfl, rfl⟩
  refine Safe.bind (safe_perform reads table) ?_
  intro answer after holds
  match answer with
  | .error (.catalogue code) => exact trivial
  | .error .visibilityRetry => exact trivial
  | .error (.store commitState) => exact trivial
  | .ok (some observed) => exact Seen.observedProjection holds
  | .ok none =>
    show Follows codec c kind (if _ then _ else _) after
    split
    · refine Safe.bind (safe_perform (show kind.Asks (.claim input) from asks) after) ?_
      intro answer last holds
      match answer with
      | .ok attempt => exact holds
      | .error (.catalogue code) => exact trivial
      | .error .visibilityRetry => exact trivial
      | .error (.store commitState) => exact trivial
    · exact trivial

theorem claimWithRecovery_safe {input : Input Value} (asks : kind = .claimStarting input) :
    Follows codec c kind (claimWithRecovery input) table := by
  refine Safe.bind (safe_perform (show kind.Asks (.claim input) from asks) table) ?_
  intro answer after holds
  match answer with
  | .ok attempt => exact holds
  | .error (.catalogue code) => exact trivial
  | .error (.store commitState) => exact claimAgain_safe asks
  | .error .visibilityRetry =>
    refine Safe.bind (safe_perform (show kind.Asks (.claim input) from asks) after) ?_
    intro answer last holds
    match answer with
    | .ok attempt => exact holds
    | .error (.catalogue code) => exact trivial
    | .error .visibilityRetry => exact claimAgain_safe asks
    | .error (.store commitState) => exact claimAgain_safe asks

/-- What a readback settles is shown by the row it has read. -/
theorem Transition.settled_post {change : Transition Value} {observed : Option (Observed Value)}
    (seen : ∀ row, observed = some row → Seen codec kind row table) {result : Result Value}
    (settled : change.settled observed = some result) : Post codec c kind result table := by
  cases change with
  | mark =>
    cases observed with
    | none => cases settled
    | some row =>
      unfold Transition.settled at settled
      dsimp only at settled
      split at settled
      · obtain rfl := Option.some.inj settled
        exact trivial
      · cases settled
  | commit stored =>
    cases observed with
    | none => cases settled
    | some row =>
      unfold Transition.settled at settled
      dsimp only at settled
      split at settled
      · obtain rfl := Option.some.inj settled
        split
        · exact (seen row rfl).committedProjection
        · exact trivial
      · cases settled

theorem holds_read {request : Request Value} {requireBinding : Option (Binding Value)}
    {observed : Option (Observed Value)} (holds : Holds codec c kind (.read request requireBinding) (.ok observed) table) :
    ∀ row, observed = some row → Seen codec kind row table := by
  rintro row rfl
  exact holds

theorem transitionReadback_safe {dispatchClaim : DispatchClaim} {input : Input Value} {change : Transition Value}
    (asks : kind = .transition dispatchClaim input change) :
    Follows codec c kind (transitionReadback input change) table := by
  have reads : kind.Asks (.read input.request (some input.binding)) := by
    subst asks
    exact ⟨rfl, rfl⟩
  refine Safe.bind (safe_perform reads table) ?_
  intro answer after holds
  match answer with
  | .error (.catalogue code) => exact trivial
  | .error .visibilityRetry => exact trivial
  | .error (.store commitState) => exact trivial
  | .ok observed =>
    show Post codec c kind ((change.settled observed).getD (.error .outcomeUncertain)) after
    cases settled : change.settled observed with
    | none => exact trivial
    | some result => exact Transition.settled_post (holds_read holds) settled

theorem transitionAgain_safe {dispatchClaim : DispatchClaim} {input : Input Value} {change : Transition Value}
    {error : StoreError} (asks : kind = .transition dispatchClaim input change) :
    Follows codec c kind (transitionAgain input change error) table := by
  have reads : kind.Asks (.read input.request (some input.binding)) := by
    subst asks
    exact ⟨rfl, rfl⟩
  refine Safe.bind (safe_perform reads table) ?_
  intro answer after holds
  match answer with
  | .error (.catalogue code) => exact trivial
  | .error .visibilityRetry => exact trivial
  | .error (.store commitState) => exact trivial
  | .ok observed =>
    dsimp only
    split
    · rename_i result settled
      exact Transition.settled_post (holds_read holds) settled
    · split
      · refine Safe.bind (safe_perform (show kind.Asks (.transition input change) from ⟨_, asks⟩) after) ?_
        intro answer last holds
        match answer with
        | .ok projection => exact holds
        | .error (.catalogue code) => exact trivial
        | .error .visibilityRetry => exact transitionReadback_safe asks
        | .error (.store commitState) => exact transitionReadback_safe asks
      · exact trivial

theorem transitionWithRecovery_safe {dispatchClaim : DispatchClaim} {input : Input Value} {change : Transition Value}
    (asks : kind = .transition dispatchClaim input change) :
    Follows codec c kind (transitionWithRecovery input change) table := by
  refine Safe.bind (safe_perform (show kind.Asks (.transition input change) from ⟨_, asks⟩) table) ?_
  intro answer after holds
  match answer with
  | .ok projection => exact holds
  | .error (.catalogue code) => exact trivial
  | .error .visibilityRetry => exact transitionAgain_safe asks
  | .error (.store commitState) => exact transitionAgain_safe asks

/-- The projection of a row that was read, or of none. -/
theorem observedProjection_post {observed : Option (Observed Value)}
    (seen : ∀ row, observed = some row → Seen codec kind row table) :
    Post codec c kind (observedProjection observed) table := by
  cases observed with
  | none => exact trivial
  | some row => exact (seen row rfl).observedProjection

theorem readCommitted_safe {request : Request Value} (asks : kind = .readCommitted request) :
    Follows codec c kind (readCommitted request) table := by
  have reads : kind.Asks (.read request none) := by
    subst asks
    exact ⟨rfl, rfl⟩
  refine Safe.bind (safe_perform reads table) ?_
  intro answer after holds
  rcases answer with (code | - | commitState) | observed
  case error.catalogue => exact trivial
  case ok => exact observedProjection_post (holds_read holds)
  -- a failed transaction is read once more
  all_goals
    refine Safe.bind (safe_perform reads after) ?_
    intro answer end' holds
    rcases answer with (code | - | commitState) | observed
    · exact trivial
    · exact trivial
    · exact trivial
    · exact observedProjection_post (holds_read holds)

theorem Kind.program_safe (kind : Kind Value) (table : Table) : Follows codec c kind kind.program table := by
  cases kind with
  | claimStarting input => exact claimWithRecovery_safe rfl
  | transition dispatchClaim input change => exact transitionWithRecovery_safe rfl
  | readCommitted request => exact readCommitted_safe rfl

end Methods

end PortableCodex.CrashCapture
