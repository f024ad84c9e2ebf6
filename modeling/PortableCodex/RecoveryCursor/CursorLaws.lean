import PortableCodex.RecoveryCursor.Calls
import PortableCodex.ProviderState.CanonicalLaws

/-!
What one call does to the cursor, whatever the other calls do meanwhile.

A row is read without loss (`normalizeCursorRow_row`), so a cursor that matches a target shows the row of
that target. `Touches` says what one transaction of a call adds to the history, and `Post` what its result
shows. A conflict is only ever the answer to a call that has written nothing, because the one retry of
`advanceLane` comes after a transaction that is known not to have committed (`Spared`).
-/

namespace PortableCodex.RecoveryCursor

open Js ProviderState Contracts Traces

/-! ### Rows -/

/-- The row that a cursor is read from. -/
def Cursor.row (cursor : Cursor) : CursorRow where
  recoveryScopeId := cursor.key.recoveryScopeId.val
  lane := cursor.key.lane.text
  afterSessionId := cursor.position.afterSessionId.map (·.val)
  afterAuthorizedAt := cursor.position.afterAuthorizedAt.map (·.val)
  afterTerminalOperationId := cursor.position.afterTerminalOperationId.map (·.val)
  cycle := cursor.cycle.val
  revision := cursor.revision.val
  lastTransitionId := cursor.lastTransitionId.map (·.val)
  lastRequestSha256 := cursor.lastRequestSha256.map (·.val)
  updatedAt := cursor.updatedAt.val

section Rows

variable {row : CursorRow} {key : Key} {cursor : Cursor} {input : AdvanceRequest}

theorem nullableColumn_eq {P : JsString → Prop} [DecidablePred P] {column : Option JsString}
    {value : Option { s : JsString // P s }} (h : nullableColumn P column = some value) :
    column = value.map (·.val) := by
  cases column with
  | none =>
    obtain rfl := Option.some.inj h
    rfl
  | some s =>
    unfold nullableColumn at h
    dsimp only at h
    split at h
    · obtain rfl := Option.some.inj h
      rfl
    · cases h

theorem checkedText_string {P : JsString → Prop} [DecidablePred P] {s : JsString} {value : { s : JsString // P s }}
    (h : checkedText P (.string s) = some value) : s = value.val := by
  unfold checkedText at h
  dsimp only at h
  split at h
  · obtain rfl := Option.some.inj h
    rfl
  · cases h

theorem canonicalLane_eq {s : JsString} {lane : Lane} (h : canonicalLane s = some lane) : s = lane.text := by
  have found := List.find?_some h
  exact (of_decide_eq_true found).symm

theorem canonicalBigint_decimal {n : Nat} {value : Bigint} (h : canonicalBigint (decimal n) = some value) :
    n = value.val := by
  unfold canonicalBigint at h
  split at h
  · obtain rfl := Option.some.inj h
    exact (digitsValue_decimal n).symm
  · cases h

/-- What a cursor that is read from a row says of it. -/
theorem normalizeCursorRow_row (h : normalizeCursorRow row key = some cursor) :
    row = cursor.row ∧ cursor.key = key ∧ cursor.position.fits key.lane = true ∧
      cursor.cycle.val ≤ cursor.revision.val := by
  unfold normalizeCursorRow at h
  simp only [Option.bind_eq_bind, Option.bind_eq_some_iff, ensure_eq_some_iff, Option.some.injEq] at h
  obtain ⟨scope, readsScope, lane, readsLane, -, same, session, readsSession, authorized, readsAuthorized,
    operation, readsOperation, -, fits, cycle, readsCycle, revision, readsRevision, -, ordered,
    transition, readsTransition, request, readsRequest, -, -, -, -, updated, readsUpdated, rfl⟩ := h
  obtain ⟨rfl, rfl⟩ := same
  refine ⟨?_, rfl, fits, ordered⟩
  cases row
  simp only [Cursor.row, CursorRow.mk.injEq]
  exact ⟨checkedText_string readsScope, canonicalLane_eq readsLane, nullableColumn_eq readsSession,
    nullableColumn_eq readsAuthorized, nullableColumn_eq readsOperation, canonicalBigint_decimal readsCycle,
    canonicalBigint_decimal readsRevision, nullableColumn_eq readsTransition, nullableColumn_eq readsRequest,
    checkedText_string readsUpdated⟩

/-- Outside the lane of the garbage collector a position is its session. -/
theorem Position.eq_of_fits {position other : Position} {lane : Lane} (fits : position.fits lane = true)
    (otherFits : other.fits lane = true) (session : position.afterSessionId = other.afterSessionId)
    (rest : lane ≠ .supervisorStateGc ∨ position.afterAuthorizedAt = other.afterAuthorizedAt ∧
      position.afterTerminalOperationId = other.afterTerminalOperationId) : position = other := by
  cases position
  cases other
  simp only at session rest
  rcases rest with lane | ⟨authorized, operation⟩
  · simp only [Position.fits, if_neg lane, decide_eq_true_eq, Option.isNone_iff_eq_none] at fits otherFits
    rw [session, fits.1, fits.2, otherFits.1, otherFits.2]
  · rw [session, authorized, operation]

/-- A request that `normalizeAdvanceRequest` gives. -/
structure AdvanceRequest.Legal (input : AdvanceRequest) (key : Key) : Prop where
  about : input.key = key
  fits : input.next.fits key.lane = true
  nextRevision : input.nextRevision.val = input.expectedRevision.val + 1

theorem incrementBigint_eq {n next : Bigint} (h : incrementBigint n = some next) : next.val = n.val + 1 := by
  unfold incrementBigint at h
  split at h
  · obtain rfl := Option.some.inj h
    rfl
  · cases h

theorem normalizeAdvanceRequest_legal {parseDate : JsString → Option IsoTimestamp} {value : JsValue}
    (h : normalizeAdvanceRequest parseDate value = some input) : input.Legal input.key := by
  unfold normalizeAdvanceRequest at h
  obtain ⟨own, -, h⟩ := Option.bind_eq_some_iff.mp h
  obtain ⟨_, -, h⟩ := Option.bind_eq_some_iff.mp h
  obtain ⟨lane, -, h⟩ := Option.bind_eq_some_iff.mp h
  obtain ⟨members, -, h⟩ := Option.bind_eq_some_iff.mp h
  obtain ⟨expected, -, h⟩ := Option.bind_eq_some_iff.mp h
  obtain ⟨next, -, h⟩ := Option.bind_eq_some_iff.mp h
  obtain ⟨_, fits, h⟩ := Option.bind_eq_some_iff.mp h
  obtain ⟨-, -, h⟩ := Option.bind_eq_some_iff.mp h
  obtain ⟨_, -, h⟩ := Option.bind_eq_some_iff.mp h
  obtain ⟨expectedCycle, -, h⟩ := Option.bind_eq_some_iff.mp h
  obtain ⟨_, -, h⟩ := Option.bind_eq_some_iff.mp h
  obtain ⟨expectedRevision, -, h⟩ := Option.bind_eq_some_iff.mp h
  obtain ⟨-, -, h⟩ := Option.bind_eq_some_iff.mp h
  obtain ⟨-, -, h⟩ := Option.bind_eq_some_iff.mp h
  obtain ⟨nextCycle, -, h⟩ := Option.bind_eq_some_iff.mp h
  obtain ⟨nextRevision, increments, h⟩ := Option.bind_eq_some_iff.mp h
  obtain ⟨_, -, h⟩ := Option.bind_eq_some_iff.mp h
  obtain ⟨scope, -, h⟩ := Option.bind_eq_some_iff.mp h
  obtain ⟨_, -, h⟩ := Option.bind_eq_some_iff.mp h
  obtain ⟨transitionId, -, h⟩ := Option.bind_eq_some_iff.mp h
  obtain ⟨_, -, h⟩ := Option.bind_eq_some_iff.mp h
  obtain ⟨requestSha256, -, h⟩ := Option.bind_eq_some_iff.mp h
  obtain rfl := Option.some.inj h
  exact ⟨rfl, (ensure_eq_some_iff.mp fits).2, incrementBigint_eq increments⟩

/-- A cursor that matches the target of a request shows the row of the target. -/
theorem row_of_cursorMatchesTarget (legal : input.Legal key) (reads : normalizeCursorRow row key = some cursor)
    (fits : cursorMatchesTarget cursor input = true) : row = targetRow input cursor.updatedAt := by
  obtain ⟨rfl, sameKey, cursorFits, -⟩ := normalizeCursorRow_row reads
  unfold cursorMatchesTarget at fits
  simp only [decide_eq_true_eq] at fits
  obtain ⟨revision, cycle, session, rest, transition, request⟩ := fits
  rw [legal.about] at rest
  have position := Position.eq_of_fits cursorFits legal.fits session rest
  unfold Cursor.row targetRow
  rw [position, revision, cycle, transition, request, sameKey, legal.about]
  rfl

end Rows

/-! ### Transactions -/

/-- A row of the history that is read. -/
def Version.Reads (version : Version) (key : Key) (cursor : Cursor) : Prop :=
  normalizeCursorRow version.row key = some cursor

/-- The table has the row of a key, which the call may have inserted. -/
def Initializes (c : CallId) (key : Key) (before middle : History) : Prop :=
  middle = before ∨ before = [] ∧ ∃ now cursor, middle = [⟨initialRow key now, c⟩] ∧
    normalizeCursorRow (initialRow key now) key = some cursor

/-- The row of a request takes the place of the one that it expects. -/
structure Changes (input : AdvanceRequest) (previous version : Version) : Prop where
  target : ∃ now cursor, version.row = targetRow input now ∧ version.Reads input.key cursor
  expected : updates previous.row input = true
  new : previous.row.lastTransitionId ≠ some input.transitionId.val

inductive Kind.Asks : Kind → Op → Prop where
  | advance (input : AdvanceRequest) : Asks (.advanceLane input) (.advance input)
  | readExisting (input : AdvanceRequest) : Asks (.advanceLane input) (.readExisting input.key)
  | initializeAndRead (key : Key) : Asks (.readLane key) (.initializeAndRead key)

def Kind.key : Kind → Key
  | .readLane key => key
  | .advanceLane input => input.key

/-- What one transaction of a call adds to the history. -/
def Touches (c : CallId) (kind : Kind) (before after : History) : Prop :=
  ∃ middle, Initializes c kind.key before middle ∧
    (after = middle ∨ ∃ input previous older version, kind = .advanceLane input ∧ middle = previous :: older ∧
      version.writer = c ∧ Changes input previous version ∧ after = version :: middle)

/-- The row that a cursor was read from. -/
def Shown (kind : Kind) (cursor : Cursor) (history : History) : Prop :=
  ∃ version ∈ history, version.Reads kind.key cursor

/-- The target of the call was reached, by the call itself where it says so. -/
def Reached (c : CallId) (kind : Kind) (result : Advanced) (history : History) : Prop :=
  ∃ input, kind = .advanceLane input ∧ cursorMatchesTarget result.cursor input = true ∧
    ∃ version ∈ history, version.Reads kind.key result.cursor ∧ (result.advanced = true → version.writer = c)

/-- The call has written nothing. -/
def Untouched (c : CallId) (history : History) : Prop := ∀ version ∈ history, version.writer ≠ c

/-- What an answer shows. -/
def Holds (c : CallId) (kind : Kind) : (op : Op) → Answer op → History → Prop
  | .advance _, .ok result, history => Reached c kind result history
  | .readExisting _, .ok observed, history => ∀ cursor, observed = some cursor → Shown kind cursor history
  | .readExisting _, .error (.cursor code), _ => code = .stateInvalid
  | .initializeAndRead _, .ok cursor, history => Shown kind cursor history
  | .initializeAndRead _, .error (.cursor code), _ => code = .stateInvalid
  | _, _, _ => True

/-- The answers of transactions that have certainly changed nothing. -/
def Spared : (op : Op) → Answer op → Prop
  | .readExisting _, _ => True
  | _, .ok _ => False
  | _, .error (.cursor _) => True
  | _, .error (.store commitState) => commitState = some .notCommitted

section Transactions

variable {c : CallId} {kind : Kind} {before after : History} {key : Key} {now : IsoTimestamp} {rows : List CursorRow}

theorem initializeAndRead_spec {cursor : Cursor}
    (h : initializeAndRead key now before.current = .ok (cursor, rows)) :
    Initializes c key before (before.written c rows) ∧
      ∃ version older, before.written c rows = version :: older ∧ version.Reads key cursor ∧
        version.row = before.current.getD (initialRow key now) := by
  unfold initializeAndRead at h
  dsimp only at h
  split at h
  · cases h
  · rename_i read reads
    obtain ⟨rfl, rfl⟩ := Prod.mk.inj (Except.ok.inj h)
    cases before with
    | nil => exact ⟨.inr ⟨rfl, now, read, rfl, reads⟩, _, _, rfl, reads, rfl⟩
    | cons version older => exact ⟨.inl rfl, version, older, rfl, reads, rfl⟩

theorem initializeAndRead_error {found : Option CursorRow} {code : ErrorCode}
    (h : initializeAndRead key now found = .error code) : code = .stateInvalid := by
  unfold initializeAndRead at h
  dsimp only at h
  split at h
  · exact (Except.error.inj h).symm
  · cases h

theorem readExisting_spec {observed : Option Cursor} (h : readExisting key before.current = .ok (observed, rows)) :
    rows = [] ∧ ∀ cursor, observed = some cursor → ∃ version ∈ before, version.Reads key cursor := by
  cases before with
  | nil =>
    simp only [readExisting, History.current, List.head?_nil, Option.map_none, Except.ok.injEq, Prod.mk.injEq] at h
    refine ⟨h.2.symm, fun cursor found => ?_⟩
    rw [← h.1] at found
    cases found
  | cons version older =>
    simp only [readExisting, History.current, List.head?_cons, Option.map_some] at h
    split at h
    · cases h
    · rename_i cursor reads
      obtain ⟨rfl, rfl⟩ := Prod.mk.inj (Except.ok.inj h)
      refine ⟨rfl, ?_⟩
      rintro _ ⟨⟩
      exact ⟨version, List.mem_cons_self, reads⟩

theorem readExisting_error {found : Option CursorRow} {code : ErrorCode}
    (h : readExisting key found = .error code) : code = .stateInvalid := by
  unfold readExisting at h
  split at h
  · cases h
  · split at h
    · exact (Except.error.inj h).symm
    · cases h

theorem advanceTransaction_spec {input : AdvanceRequest} {result : Advanced}
    (h : advanceTransaction input now before.current = .ok (result, rows)) :
    Touches c (.advanceLane input) before (before.written c rows) ∧
      Reached c (.advanceLane input) result (before.written c rows) := by
  unfold advanceTransaction at h
  cases read : initializeAndRead input.key now before.current with
  | error code =>
    rw [read] at h
    cases h
  | ok initial =>
    obtain ⟨cursor, initialized⟩ := initial
    rw [read] at h
    obtain ⟨initializes, version, older, whole, reads, row⟩ := @initializeAndRead_spec c _ _ _ _ _ read
    change (if _ then _ else _) = _ at h
    split at h
    · split at h
      · rename_i fits
        obtain ⟨rfl, rfl⟩ := Prod.mk.inj (Except.ok.inj h)
        refine ⟨⟨_, initializes, .inl rfl⟩, input, rfl, fits, version, ?_, reads, nofun⟩
        rw [whole]
        exact List.mem_cons_self
      · cases h
    · rename_i other
      split at h
      · split at h
        · rename_i meets
          split at h
          · cases h
          · rename_i updated readsUpdated
            split at h
            · rename_i fits
              obtain ⟨rfl, rfl⟩ := Prod.mk.inj (Except.ok.inj h)
              have new : version.row.lastTransitionId ≠ some input.transitionId.val := by
                intro same
                apply other
                rw [(normalizeCursorRow_row reads).1] at same
                obtain ⟨transition, found, sameText⟩ := Option.map_eq_some_iff.mp same
                rw [found, Subtype.ext sameText]
              rw [← row] at meets
              refine ⟨⟨_, initializes, .inr ⟨input, version, older, ⟨targetRow input now, c⟩, rfl, whole, rfl, ?_, rfl⟩⟩, ?_⟩
              · exact ⟨⟨now, updated, rfl, readsUpdated⟩, meets, new⟩
              · exact ⟨input, rfl, fits.1, ⟨targetRow input now, c⟩, List.mem_cons_self, readsUpdated, fun _ => rfl⟩
            · cases h
        · cases h
      · cases h

theorem Touches.still (c : CallId) (kind : Kind) (history : History) : Touches c kind history history :=
  ⟨history, .inl rfl, .inl rfl⟩

/-- A transaction that commits. -/
theorem commits_spec {op : Op} {value : op.Result} (asks : kind.Asks op) (h : Commits c op before value after) :
    Touches c kind before after ∧ Holds c kind op (.ok value) after ∧ (Spared op (.ok value) → after = before) := by
  obtain ⟨now, rows, ran, rfl⟩ := h
  cases asks with
  | advance input =>
    obtain ⟨touches, reached⟩ := @advanceTransaction_spec c _ _ _ _ _ ran
    exact ⟨touches, reached, False.elim⟩
  | readExisting input =>
    obtain ⟨rfl, shows⟩ := readExisting_spec ran
    exact ⟨.still _ _ _, shows, fun _ => rfl⟩
  | initializeAndRead key =>
    obtain ⟨initializes, version, older, whole, reads, -⟩ := @initializeAndRead_spec c _ _ _ _ _ ran
    refine ⟨⟨_, initializes, .inl rfl⟩, ⟨version, ?_, reads⟩, False.elim⟩
    rw [whole]
    exact List.mem_cons_self

theorem runSerializable_spec {op : Op} {answer : Answer op} (asks : kind.Asks op)
    (h : runSerializable c before op answer after) :
    Touches c kind before after ∧ Holds c kind op answer after ∧ (Spared op answer → after = before) := by
  rcases answer with (code | commitState) | value
  · obtain ⟨rfl, now, failed⟩ := h
    refine ⟨.still _ _ _, ?_, fun _ => rfl⟩
    cases asks with
    | advance input => exact trivial
    | readExisting input => exact readExisting_error failed
    | initializeAndRead key => exact initializeAndRead_error failed
  · rcases h with rfl | ⟨hidden, value, commits⟩
    · exact ⟨.still _ _ _, by cases asks <;> exact trivial, fun _ => rfl⟩
    · obtain ⟨touches, -, same⟩ := commits_spec asks commits
      refine ⟨touches, by cases asks <;> exact trivial, ?_⟩
      cases asks with
      | advance input => exact fun spared => absurd spared hidden
      | readExisting input => exact fun _ => same trivial
      | initializeAndRead key => exact fun spared => absurd spared hidden
  · exact commits_spec asks h

end Transactions

/-! ### Methods -/

/-- What the other calls do meanwhile. -/
def Others (c : CallId) (history later : History) : Prop :=
  ∃ more, later = more ++ history ∧ Untouched c more

/-- What a result shows. -/
def Post (c : CallId) (kind : Kind) : Result → History → Prop
  | .ok (.advanced result), history => Reached c kind result history
  | .ok (.cursor cursor), history => (∃ key, kind = .readLane key) ∧ Shown kind cursor history
  | .error code, history => code = .conflict → Untouched c history

/-- A method of a call from a history on, whatever the other calls write. -/
abbrev Follows (c : CallId) (kind : Kind) (program : Method Result) (history : History) : Prop :=
  Safe (runSerializable c) (Others c) (Touches c kind) (Post c kind) program history

section Methods

variable {c : CallId} {kind : Kind} {history later : History} {input : AdvanceRequest}

theorem Others.untouched (h : Others c history later) (untouched : Untouched c history) : Untouched c later := by
  obtain ⟨more, rfl, others⟩ := h
  intro version inside
  rcases List.mem_append.mp inside with new | old
  · exact others version new
  · exact untouched version old

theorem Others.mem (h : Others c history later) {version : Version} (inside : version ∈ history) : version ∈ later := by
  obtain ⟨more, rfl, -⟩ := h
  exact List.mem_append_right _ inside

theorem Shown.mono {cursor : Cursor} (h : Shown kind cursor history) (others : Others c history later) :
    Shown kind cursor later := by
  obtain ⟨version, inside, reads⟩ := h
  exact ⟨version, others.mem inside, reads⟩

theorem Post.mono {result : Result} (h : Post c kind result history) (others : Others c history later) :
    Post c kind result later := by
  rcases result with code | result | cursor
  · exact fun conflict => others.untouched (h conflict)
  · obtain ⟨input, same, fits, version, inside, shows⟩ := h
    exact ⟨input, same, fits, version, others.mem inside, shows⟩
  · exact ⟨h.1, h.2.mono others⟩

theorem safe_perform {op : Op} (asks : kind.Asks op) (history : History) :
    Safe (runSerializable c) (Others c) (Touches c kind)
      (fun answer after => Holds c kind op answer after ∧ (Spared op answer → Untouched c history → Untouched c after))
      (Program.perform op) history := by
  intro before others answer after effected
  obtain ⟨touches, holds, same⟩ := runSerializable_spec asks effected
  refine ⟨touches, holds, fun spared untouched => ?_⟩
  rw [same spared]
  exact others.untouched untouched

/-- A readback ends the call, or leaves the history to what comes next. -/
theorem readback_safe {next : Option Cursor → Method Result}
    (rest : ∀ observed after, (Untouched c history → Untouched c after) →
      Follows c (.advanceLane input) (next observed) after) :
    Follows c (.advanceLane input) (readback input next) history := by
  refine Safe.bind (safe_perform (.readExisting input) history) ?_
  rintro ((code | commitState) | observed) after ⟨holds, spared⟩
  · obtain rfl : code = .stateInvalid := holds
    exact nofun
  · exact nofun
  · dsimp only
    cases shows : shown input observed with
    | none => exact rest observed after (spared trivial)
    | some result =>
      cases observed with
      | none => cases shows
      | some cursor =>
        simp only [shown] at shows
        split at shows
        · rename_i fits
          obtain rfl := Option.some.inj shows
          obtain ⟨version, inside, reads⟩ := holds cursor rfl
          exact ⟨input, rfl, fits, version, inside, reads, nofun⟩
        · cases shows

theorem advanceLane_safe (untouched : Untouched c history) :
    Follows c (.advanceLane input) (advanceLane input) history := by
  refine Safe.bind (safe_perform (.advance input) history) ?_
  rintro ((code | commitState) | result) after ⟨holds, spared⟩
  · exact fun _ => spared trivial untouched
  · refine readback_safe fun observed last still => ?_
    show Follows c _ (if _ then _ else _) last
    split
    · rename_i again
      rw [Bool.and_eq_true, decide_eq_true_eq] at again
      -- the first transaction has not committed, so the call has still written nothing
      have stillUntouched := still (spared again.1 untouched)
      refine Safe.bind (safe_perform (.advance input) last) ?_
      rintro ((code | commitState) | result) final ⟨holds, spared⟩
      · exact fun _ => spared trivial stillUntouched
      · exact readback_safe fun _ _ _ => nofun
      · exact holds
    · exact nofun
  · exact holds

theorem readLane_safe (key : Key) : Follows c (.readLane key) (readLane key) history := by
  refine Safe.bind (safe_perform (.initializeAndRead key) history) ?_
  rintro ((code | commitState) | cursor) after ⟨holds, -⟩
  · obtain rfl : code = .stateInvalid := holds
    exact nofun
  · refine Safe.bind (safe_perform (.initializeAndRead key) after) ?_
    rintro ((code | commitState) | cursor) final ⟨holds, -⟩
    · obtain rfl : code = .stateInvalid := holds
      exact nofun
    · exact nofun
    · exact ⟨⟨key, rfl⟩, holds⟩
  · exact ⟨⟨key, rfl⟩, holds⟩

theorem Kind.program_safe (kind : Kind) (untouched : Untouched c history) : Follows c kind kind.program history := by
  cases kind with
  | readLane key => exact readLane_safe key
  | advanceLane input => exact advanceLane_safe untouched

end Methods

end PortableCodex.RecoveryCursor
