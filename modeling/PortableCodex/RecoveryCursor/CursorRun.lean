import PortableCodex.RecoveryCursor.CursorLaws

/-!
The laws of the cursor over whole runs.

`Linked` is the shape of a history: the initial row, and then one row for each change, each by a call that
has asked for it. `Inv.step` says that a step keeps it. Each row has the revision after the one before it, so
no request changes the row twice; a transition ID that a later request uses again can (`run_reused`).
-/

namespace PortableCodex.RecoveryCursor

open Js ProviderState Contracts Traces

/-! ### Histories -/

/-- A change that its call has asked for. -/
def Requested (calls : CallId → Option Call) (key : Key) (previous version : Version) : Prop :=
  ∃ input progress, calls version.writer = some { kind := .advanceLane input, progress } ∧ input.Legal key ∧
    Changes input previous version

/-- The histories that begin with the initial row and go on by changes. -/
inductive Linked (key : Key) (change : Version → Version → Prop) : History → Prop where
  | empty : Linked key change []
  | initial {version now cursor} : version.row = initialRow key now → version.Reads key cursor →
      Linked key change [version]
  | change {version previous older} : Linked key change (previous :: older) → change previous version →
      Linked key change (version :: previous :: older)

section Histories

variable {key : Key} {change change' : Version → Version → Prop} {history : History}

theorem Linked.mono (h : Linked key change history)
    (wider : ∀ previous version, change previous version → change' previous version) :
    Linked key change' history := by
  induction h with
  | empty => exact .empty
  | initial row reads => exact .initial row reads
  | change _ changed ih => exact .change ih (wider _ _ changed)

/-- The revisions count the changes. -/
theorem Linked.revision (h : Linked key change history)
    (next : ∀ previous version, change previous version → version.row.revision = previous.row.revision + 1)
    {i : Nat} {version : Version} (found : history[i]? = some version) :
    i + version.row.revision + 1 = history.length := by
  induction h generalizing i version with
  | empty => cases found
  | @initial first now cursor row reads =>
    cases i with
    | zero =>
      obtain rfl := Option.some.inj found
      rw [row]
      rfl
    | succ i => cases found
  | @change last previous older linked changed ih =>
    cases i with
    | zero =>
      obtain rfl := Option.some.inj found
      have before := @ih 0 previous rfl
      rw [next _ _ changed, List.length_cons, ← before]
      omega
    | succ i =>
      have before := @ih i version found
      rw [List.length_cons, ← before]
      omega

theorem Linked.reads (h : Linked key change history)
    (legible : ∀ previous version, change previous version → ∃ cursor, version.Reads key cursor) :
    ∀ version ∈ history, ∃ cursor, version.Reads key cursor := by
  induction h with
  | empty => exact nofun
  | initial _ reads =>
    intro version inside
    obtain rfl := List.mem_singleton.mp inside
    exact ⟨_, reads⟩
  | change _ changed ih =>
    intro version inside
    rcases List.mem_cons.mp inside with rfl | before
    · exact legible _ _ changed
    · exact ih version before

end Histories

/-! ### Worlds -/

structure Inv (key : Key) (world : World) : Prop where
  linked : Linked key (Requested world.calls key) world.history
  writers : ∀ version ∈ world.history, version.writer < world.nextCall
  fresh : ∀ c, world.nextCall ≤ c → world.calls c = none
  about : ∀ c call, world.calls c = some call → call.kind.key = key
  legal : ∀ c call input, world.calls c = some call → call.kind = .advanceLane input → input.Legal key
  running : ∀ c kind program, world.calls c = some { kind, progress := .running program } →
    ∃ past, Others c past world.history ∧ Follows c kind program past
  returned : ∀ c kind result, world.calls c = some { kind, progress := .returned result } →
    Post c kind result world.history

theorem inv_initial (key : Key) : Inv key .initial where
  linked := .empty
  writers _ inside := by cases inside
  fresh _ _ := rfl
  about _ _ found := by cases found
  legal _ _ _ found := by cases found
  running _ _ _ found := by cases found
  returned _ _ _ found := by cases found

theorem Others.refl (c : CallId) (history : History) : Others c history history := ⟨[], rfl, nofun⟩

theorem Others.trans {c : CallId} {history later last : History} (first : Others c history later)
    (second : Others c later last) : Others c history last := by
  obtain ⟨more, rfl, untouched⟩ := first
  obtain ⟨further, rfl, furtherUntouched⟩ := second
  refine ⟨further ++ more, (List.append_assoc _ _ _).symm, ?_⟩
  intro version inside
  rcases List.mem_append.mp inside with new | old
  · exact furtherUntouched version new
  · exact untouched version old

section Steps

variable {key : Key} {world next : World} {c : CallId} {kind : Kind} {progress : Progress}

theorem calls_setCall (world : World) (c d : CallId) (call : Call) :
    (world.setCall c call).calls d = if d = c then some call else world.calls d := by
  show Function.update world.calls c (some call) d = _
  split
  · rename_i same
    rw [same, Function.update_self]
  · rename_i other
    exact Function.update_of_ne other _ _

/-- What a call writes comes from the others, as far as another call is concerned. -/
theorem Touches.others {d : CallId} {before after : History} (touches : Touches c kind before after) (other : d ≠ c) :
    Others d before after := by
  obtain ⟨middle, initializes, changes⟩ := touches
  have first : Others d before middle := by
    rcases initializes with rfl | ⟨rfl, now, cursor, rfl, -⟩
    · exact .refl d middle
    · refine ⟨[⟨initialRow kind.key now, c⟩], rfl, ?_⟩
      rintro _ (_ | _)
      · exact other.symm
      · rename_i inside
        cases inside
  rcases changes with rfl | ⟨input, previous, older, version, -, -, rfl, -, rfl⟩
  · exact first
  · refine first.trans ⟨[version], rfl, ?_⟩
    intro written inside
    obtain rfl := List.mem_singleton.mp inside
    exact other.symm

theorem Touches.writers {before after : History} (touches : Touches c kind before after) {version : Version}
    (inside : version ∈ after) : version ∈ before ∨ version.writer = c := by
  obtain ⟨middle, initializes, changes⟩ := touches
  have first : ∀ version ∈ middle, version ∈ before ∨ version.writer = c := by
    rcases initializes with rfl | ⟨rfl, now, cursor, rfl, -⟩
    · exact fun _ => .inl
    · intro version inside
      obtain rfl := List.mem_singleton.mp inside
      exact .inr rfl
  rcases changes with rfl | ⟨input, previous, older, last, -, -, writer, -, rfl⟩
  · exact first version inside
  · rcases List.mem_cons.mp inside with rfl | before
    · exact .inr writer
    · exact first version before

/-- The history stays linked. -/
theorem Touches.linked {after : History} (inv : Inv key world) (found : world.calls c = some { kind, progress })
    (touches : Touches c kind world.history after) : Linked key (Requested world.calls key) after := by
  obtain ⟨middle, initializes, changes⟩ := touches
  have first : Linked key (Requested world.calls key) middle := by
    rcases initializes with rfl | ⟨-, now, cursor, rfl, reads⟩
    · exact inv.linked
    · rw [inv.about c _ found] at reads ⊢
      exact .initial rfl reads
  rcases changes with rfl | ⟨input, previous, older, version, rfl, rfl, rfl, changed, rfl⟩
  · exact first
  · exact .change first ⟨input, progress, found, inv.legal _ _ input found rfl, changed⟩

theorem Inv.touch (h : Inv key world) (found : world.calls c = some { kind, progress }) {after : History}
    (touches : Touches c kind world.history after) :
    Linked key (Requested world.calls key) after ∧ (∀ version ∈ after, version.writer < world.nextCall) := by
  refine ⟨touches.linked h found, ?_⟩
  intro version inside
  rcases touches.writers inside with before | rfl
  · exact h.writers version before
  · by_contra late
    rw [h.fresh _ (Nat.le_of_not_lt late)] at found
    cases found

/-- A change stays requested while the calls keep their kinds. -/
theorem Requested.setCall {after : Progress} {previous version : Version}
    (found : world.calls c = some { kind, progress }) (h : Requested world.calls key previous version) :
    Requested (world.setCall c { kind, progress := after }).calls key previous version := by
  obtain ⟨input, writing, writer, legal, changed⟩ := h
  by_cases same : version.writer = c
  · rw [same, found] at writer
    obtain ⟨rfl, -⟩ := Call.mk.inj (Option.some.inj writer)
    refine ⟨input, after, ?_, legal, changed⟩
    rw [calls_setCall, if_pos same]
  · refine ⟨input, writing, ?_, legal, changed⟩
    rw [calls_setCall, if_neg same]
    exact writer

theorem Inv.begin (h : Inv key world) (about : kind.key = key)
    (legal : ∀ input, kind = .advanceLane input → input.Legal key) : Inv key (world.begin kind) := by
  have untouched : Untouched world.nextCall world.history := by
    intro version inside
    exact Nat.ne_of_lt (h.writers version inside)
  have place {d : CallId} {call : Call} (found : (world.begin kind).calls d = some call) :
      world.calls d = some call ∨ d = world.nextCall ∧ call = { kind, progress := .running kind.program } := by
    change (world.setCall _ _).calls d = _ at found
    rw [calls_setCall] at found
    split at found
    · rename_i same
      exact .inr ⟨same, (Option.some.inj found).symm⟩
    · exact .inl found
  constructor
  · refine h.linked.mono ?_
    rintro previous version ⟨input, writing, writer, rest⟩
    refine ⟨input, writing, ?_, rest⟩
    show (world.setCall _ _).calls _ = _
    rw [calls_setCall, if_neg]
    · exact writer
    · intro same
      rw [same, h.fresh _ (Nat.le_refl _)] at writer
      cases writer
  · intro version inside
    exact Nat.lt_succ_of_lt (h.writers version inside)
  · intro d late
    show (world.setCall _ _).calls d = none
    rw [calls_setCall, if_neg (Nat.ne_of_gt late)]
    exact h.fresh d (Nat.le_of_lt late)
  · intro d call found
    rcases place found with before | ⟨-, rfl⟩
    · exact h.about d call before
    · exact about
  · intro d call input found same
    rcases place found with before | ⟨-, rfl⟩
    · exact h.legal d call input before same
    · exact legal input same
  · intro d other program found
    rcases place found with before | ⟨rfl, same⟩
    · exact h.running d other program before
    · obtain ⟨rfl, runs⟩ := Call.mk.inj same
      obtain rfl := Progress.running.inj runs
      exact ⟨world.history, .refl _ _, other.program_safe untouched⟩
  · intro d other result found
    rcases place found with before | ⟨-, same⟩
    · exact h.returned d other result before
    · cases (Call.mk.inj same).2

/-- A call goes on after a transaction. -/
theorem Inv.goOn (h : Inv key world) (found : world.calls c = some { kind, progress }) {after : History}
    (touches : Touches c kind world.history after) {program : Method Result} (follows : Follows c kind program after) :
    Inv key ({ world with history := after }.goOn c kind program) := by
  obtain ⟨linked, writers⟩ := h.touch found touches
  -- both ends of `goOn` set the call; what is known of the others does not depend on how
  have keeps (now : Progress) (running : ∀ program, now = .running program → Follows c kind program after)
      (returned : ∀ result, now = .returned result → Post c kind result after) :
      Inv key ({ world with history := after }.setCall c ⟨kind, now⟩) := by
    have place {d : CallId} {other : Call}
        (there : ({ world with history := after }.setCall c ⟨kind, now⟩).calls d = some other) :
        world.calls d = some other ∧ d ≠ c ∨ d = c ∧ other = ⟨kind, now⟩ := by
      rw [calls_setCall] at there
      split at there
      · rename_i same
        exact .inr ⟨same, (Option.some.inj there).symm⟩
      · rename_i distinct
        exact .inl ⟨there, distinct⟩
    constructor
    · exact linked.mono fun _ _ => Requested.setCall found
    · exact writers
    · intro d late
      rw [calls_setCall, if_neg]
      · exact h.fresh d late
      · rintro rfl
        rw [h.fresh _ late] at found
        cases found
    · intro d other there
      rcases place there with ⟨before, -⟩ | ⟨rfl, rfl⟩
      · exact h.about d other before
      · have about := h.about d _ found
        exact about
    · intro d other input there same
      rcases place there with ⟨before, -⟩ | ⟨rfl, rfl⟩
      · exact h.legal d other input before same
      · exact h.legal d _ input found same
    · intro d other program there
      rcases place there with ⟨before, distinct⟩ | ⟨rfl, same⟩
      · obtain ⟨past, others, follows⟩ := h.running d other program before
        exact ⟨past, others.trans (touches.others distinct), follows⟩
      · obtain ⟨rfl, rfl⟩ := Call.mk.inj same
        exact ⟨after, .refl _ _, running program rfl⟩
    · intro d other result there
      rcases place there with ⟨before, distinct⟩ | ⟨rfl, same⟩
      · exact (h.returned d other result before).mono (touches.others distinct)
      · obtain ⟨rfl, rfl⟩ := Call.mk.inj same
        exact returned result rfl
  cases program with
  | ask op rest =>
    refine keeps _ ?_ ?_
    · intro program same
      obtain rfl := Progress.running.inj same
      exact follows
    · intro result never
      cases never
  | done result =>
    refine keeps _ ?_ ?_
    · intro program never
      cases never
    · intro result same
      obtain rfl := Progress.returned.inj same
      exact follows

variable {parseDate : JsString → Option IsoTimestamp}

theorem Inv.step (h : Inv key world) {event : Event} (step : Step parseDate key world event next) : Inv key next := by
  cases step with
  | readLane normalized =>
    refine h.begin rfl ?_
    intro input never
    cases never
  | @advanceLane request input normalized about =>
    refine h.begin about ?_
    intro other same
    obtain rfl := Kind.advanceLane.inj same
    rw [← about]
    exact normalizeAdvanceRequest_legal normalized
  | @transaction c kind op rest answer after found ran =>
    obtain ⟨past, others, follows⟩ := h.running c kind _ found
    obtain ⟨touches, goesOn⟩ := follows world.history others answer after ran
    exact h.goOn found touches goesOn

theorem inv_of_run {trace : List Event} (run : Run (cursors parseDate key) trace world) : Inv key world := by
  refine @Run.invariant _ _ _ (fun _ world => Inv key world) ?_ ?_ _ _ run
  · rintro _ rfl
    exact inv_initial key
  · rintro _ _ _ _ h ⟨event, step, -⟩
    exact h.step step

/-! ### The laws -/

structure CursorLaws (key : Key) (world : World) : Prop where
  /-- The initial row, and then one row for each change, which the request of its call names. -/
  linked : Linked key (Requested world.calls key) world.history
  /-- The revisions are consecutive. -/
  revisions : ∀ (i : Nat) (version : Version), world.history[i]? = some version → i + version.row.revision + 1 = world.history.length
  /-- A request changes the row once, whichever calls make it. -/
  once : ∀ (i j : Nat) (version other : Version) input now later, world.history[i]? = some version → world.history[j]? = some other →
    version.row = targetRow input now → other.row = targetRow input later → i = j
  accepted : ∀ version ∈ world.history, ∃ cursor, normalizeCursorRow version.row key = some cursor ∧
    version.row.cycle ≤ version.row.revision ∧ version.row.revision ≤ 2 ^ 63 - 1
  /-- The row had the target, by the transition of the request. -/
  advanced : ∀ c input progress result, world.calls c = some { kind := .advanceLane input, progress } →
    progress = .returned (.ok result) → ∃ answer, result = .advanced answer ∧
      ∃ version ∈ world.history, normalizeCursorRow version.row key = some answer.cursor ∧
        version.row = targetRow input answer.cursor.updatedAt ∧ (answer.advanced = true → version.writer = c)
  read : ∀ c lane progress result, world.calls c = some { kind := .readLane lane, progress } →
    progress = .returned (.ok result) → ∃ cursor, result = .cursor cursor ∧
      ∃ version ∈ world.history, normalizeCursorRow version.row key = some cursor
  /-- A call that ends in a conflict has written nothing. -/
  conflict : ∀ c kind, world.calls c = some { kind, progress := .returned (.error .conflict) } →
    ∀ version ∈ world.history, version.writer ≠ c

theorem Requested.revision {previous version : Version} (h : Requested world.calls key previous version) :
    version.row.revision = previous.row.revision + 1 := by
  obtain ⟨input, -, -, legal, ⟨now, -, row, -⟩, expected, -⟩ := h
  unfold updates at expected
  rw [decide_eq_true_eq] at expected
  rw [row, expected.1]
  exact legal.nextRevision

theorem Requested.reads {previous version : Version} (h : Requested world.calls key previous version) :
    ∃ cursor, version.Reads key cursor := by
  obtain ⟨input, -, -, legal, ⟨-, cursor, -, reads⟩, -, -⟩ := h
  rw [legal.about] at reads
  exact ⟨cursor, reads⟩

end Steps

theorem cursorLaws {parseDate : JsString → Option IsoTimestamp} {key : Key} {trace : List Event} {world : World}
    (run : Run (cursors parseDate key) trace world) : CursorLaws key world := by
  have inv := inv_of_run run
  have revisions (i : Nat) (version : Version) (found : world.history[i]? = some version) :
      i + version.row.revision + 1 = world.history.length :=
    inv.linked.revision (fun _ _ => Requested.revision) found
  constructor
  · exact inv.linked
  · exact revisions
  · intro i j version other input now later found foundOther row otherRow
    have first := revisions i version found
    have second := revisions j other foundOther
    have same : version.row.revision = other.row.revision := by
      rw [row, otherRow]
      rfl
    omega
  · intro version inside
    obtain ⟨cursor, reads⟩ := inv.linked.reads (fun _ _ => Requested.reads) version inside
    obtain ⟨row, -, -, ordered⟩ := normalizeCursorRow_row reads
    refine ⟨cursor, reads, ?_⟩
    rw [row]
    exact ⟨ordered, cursor.revision.property⟩
  · rintro c input _ result found rfl
    have legal := inv.legal c _ input found rfl
    have post := inv.returned c _ _ found
    cases result with
    | advanced answer =>
      obtain ⟨other, same, fits, version, inside, reads, own⟩ := post
      obtain rfl := Kind.advanceLane.inj same
      have readsKey : version.Reads key answer.cursor := by
        rw [← legal.about]
        exact reads
      exact ⟨answer, rfl, version, inside, readsKey, row_of_cursorMatchesTarget legal readsKey fits, own⟩
    | cursor cursor =>
      obtain ⟨⟨lane, never⟩, -⟩ := post
      cases never
  · rintro c lane _ result found rfl
    have post := inv.returned c _ _ found
    have about := inv.about c _ found
    cases result with
    | advanced answer =>
      obtain ⟨input, never, -⟩ := post
      cases never
    | cursor cursor =>
      obtain ⟨-, version, inside, reads⟩ := post
      rw [about] at reads
      exact ⟨cursor, rfl, version, inside, reads⟩
  · intro c kind found
    exact inv.returned c kind _ found rfl

/-! ### A run -/

def noon : JsString := js "2024-02-29T12:00:00.000Z"

theorem noon_isIsoTimestamp : IsIsoTimestamp noon := by decide +kernel

theorem scope_isOpaqueId : IsOpaqueId (js "scope") := by decide +kernel

def scopeKey : Key := { recoveryScopeId := ⟨js "scope", scope_isOpaqueId⟩, lane := .generation }

/-- A transition of the lane from the start to the start, in its next cycle. -/
def cycleRequest (transitionId revision : JsString) : JsValue :=
  .object [(js "recoveryScopeId", .string (js "scope")), (js "lane", .string (js "generation")),
    (js "expectedAfterSessionId", .null), (js "nextAfterSessionId", .null),
    (js "expectedCycle", .string revision), (js "expectedRevision", .string revision),
    (js "transitionId", .string transitionId), (js "requestSha256", .string (List.replicate 64 97))]

def firstId : JsString := js "00000000-0000-4000-8000-000000000001"

def secondId : JsString := js "00000000-0000-4000-8000-000000000002"

/-- A step whose transactions commit at noon. -/
def performs (world : World) : Event → Option World
  | .readLane _ => none
  | .advanceLane request => do
      let input ← normalizeAdvanceRequest (fun _ => none) request
      ensure (input.key = scopeKey)
      some (world.begin (.advanceLane input))
  | .transaction c => do
      let call ← world.calls c
      match call.progress with
      | .returned _ => none
      | .running (.done _) => none
      | .running (.ask op next) => do
          let (value, rows) ← (body ⟨noon, noon_isIsoTimestamp⟩ op world.history.current).toOption
          some ({ world with history := world.history.written c rows }.goOn c call.kind (next (.ok value)))

theorem step_of_performs (world : World) (event : Event) (next : World) (h : performs world event = some next) :
    Step (fun _ => none) scopeKey world event next := by
  cases event with
  | readLane request => cases h
  | advanceLane request =>
    obtain ⟨input, normalized, h⟩ := Option.bind_eq_some_iff.mp h
    obtain ⟨_, about, h⟩ := Option.bind_eq_some_iff.mp h
    obtain rfl := Option.some.inj h
    exact .advanceLane normalized (ensure_eq_some_iff.mp about)
  | transaction c =>
    obtain ⟨⟨kind, progress⟩, found, h⟩ := Option.bind_eq_some_iff.mp h
    rcases progress with (_ | ⟨op, rest⟩) | _
    · cases h
    · obtain ⟨⟨value, rows⟩, ran, h⟩ := Option.bind_eq_some_iff.mp h
      obtain rfl := Option.some.inj h
      cases took : body ⟨noon, noon_isIsoTimestamp⟩ op world.history.current with
      | error code =>
        rw [took] at ran
        cases ran
      | ok pair =>
        rw [took] at ran
        obtain rfl := Option.some.inj ran
        exact @Step.transaction _ _ world c kind op rest (.ok value) _ found ⟨_, rows, took, rfl⟩
    · cases h

def reusedEvents : List Event :=
  [.advanceLane (cycleRequest firstId (js "0")), .transaction 0,
    .advanceLane (cycleRequest secondId (js "1")), .transaction 1,
    .advanceLane (cycleRequest firstId (js "2")), .transaction 2]

theorem reusedEvents_history : (reusedEvents.foldlM performs .initial).map (·.history.map fun version =>
    (version.row.revision, version.row.lastTransitionId)) =
    some [(3, some firstId), (2, some secondId), (1, some firstId), (0, none)] := by decide +kernel

/-- A transition ID that is used again after another one. -/
theorem run_reused : ∃ trace world, Run (cursors (fun _ => none) scopeKey) trace world ∧
    ∃ newest oldest, world.history[0]? = some newest ∧ world.history[2]? = some oldest ∧
      newest.row.revision = 3 ∧ newest.row.lastTransitionId = some firstId ∧
      oldest.row.lastTransitionId = some firstId := by
  obtain ⟨world, ran, history⟩ := Option.map_eq_some_iff.mp reusedEvents_history
  have run : Run (cursors (fun _ => none) scopeKey) ([] ++ reusedEvents) world := by
    refine Run.foldlM (.start rfl) ?_ ran
    intro event _ before after performed
    exact ⟨event, step_of_performs before event after performed, rfl⟩
  have newestPlace := congrArg (·[0]?) history
  have oldestPlace := congrArg (·[2]?) history
  simp only [List.getElem?_map] at newestPlace oldestPlace
  obtain ⟨newest, newestFound, newestShows⟩ := Option.map_eq_some_iff.mp newestPlace
  obtain ⟨oldest, oldestFound, oldestShows⟩ := Option.map_eq_some_iff.mp oldestPlace
  obtain ⟨revision, transition⟩ := Prod.mk.inj newestShows
  exact ⟨_, world, run, newest, oldest, newestFound, oldestFound, revision, transition, (Prod.mk.inj oldestShows).2⟩

/-- A transition ID can change the row twice. -/
theorem transitionId_twice : ¬ ∀ parseDate key trace world, Run (cursors parseDate key) trace world →
    ∀ (i j : Nat) (version other : Version), world.history[i]? = some version → world.history[j]? = some other →
      version.row.lastTransitionId ≠ none → version.row.lastTransitionId = other.row.lastTransitionId → i = j := by
  intro once
  obtain ⟨trace, world, run, newest, oldest, newestFound, oldestFound, -, transition, again⟩ := run_reused
  have set : newest.row.lastTransitionId ≠ none := by
    rw [transition]
    exact Option.some_ne_none _
  have never := once _ _ trace world run 0 2 newest oldest newestFound oldestFound set (transition.trans again.symm)
  cases never

theorem cursorLaws_reused : ∃ trace world, Run (cursors (fun _ => none) scopeKey) trace world ∧
    world.history.length = 4 := by
  obtain ⟨trace, world, run, newest, oldest, newestFound, -, revision, -⟩ := run_reused
  have counted := (cursorLaws run).revisions 0 newest newestFound
  rw [revision] at counted
  exact ⟨trace, world, run, counted.symm⟩

end PortableCodex.RecoveryCursor
