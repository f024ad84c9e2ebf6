import PortableCodex.AuthBroker.MethodLaws

/-!
The laws of the brokers over whole runs.

`Lawful` is what holds of what is shared: every version is a rotation of the one before or a change that its
call may make, and every dispatch has its own reservation. A step of one call keeps it (`Touch.lawful`) and
leaves what the other calls know (`Touch.quiet`), so that `Inv.step` follows the calls one by one.
-/

namespace PortableCodex.AuthBroker

open Js ProviderState Traces

/-! ### What is shared -/

/-- A version over the ones before it. -/
def Written (kinds : CallId → Option Kind) (s : Shared) (version : Version) (older : History) : Prop :=
  (version.writer = none ∧ ∃ before rest, older = before :: rest ∧ version.raw = before.raw) ∨
    ∃ c kind payload, version.writer = some c ∧ kinds c = some kind ∧ version.raw = serialize payload ∧
      (c, version.commitId) ∈ s.issued ∧ Change kind (Owned c s) older payload

structure Lawful (kinds : CallId → Option Kind) (s : Shared) : Prop where
  versions : ∀ newer version older, s.history = newer ++ version :: older → Written kinds s version older
  ids : (s.issued.map Prod.snd).Nodup
  dispatches : ∀ d ∈ s.dispatches, Reserved d.caller d.request s
  once : (s.dispatches.map (·.caller)).Nodup
  good : Good s
  workers : ∀ broker, Remembered (s.workers broker) s

section Shares

variable {kinds kinds' : CallId → Option Kind} {s s' : Shared} {c : CallId} {kind : Kind}

theorem Written.mono {version : Version} {older : History} (h : Written kinds s version older)
    (wider : ∀ c kind, kinds c = some kind → kinds' c = some kind) (grows : ∀ given ∈ s.issued, given ∈ s'.issued) :
    Written kinds' s' version older := by
  rcases h with rotated | ⟨c, kind, payload, writer, named, raw, given, change⟩
  · exact .inl rotated
  · exact .inr ⟨c, kind, payload, writer, wider c kind named, raw, grows _ given, change.mono fun _ own => grows _ own⟩

theorem Lawful.mono (h : Lawful kinds s) (wider : ∀ c kind, kinds c = some kind → kinds' c = some kind) :
    Lawful kinds' s where
  versions newer version older form := (h.versions newer version older form).mono wider fun _ inside => inside
  ids := h.ids
  dispatches := h.dispatches
  once := h.once
  good := h.good
  workers := h.workers

theorem Good.grows (h : Good s) (grows : Grows s s') (tasks : s'.tasks = s.tasks) : Good s' := by
  intro t task grant found outcome
  rw [tasks] at found
  exact Granted.lasts grant s s' grows (h t task grant found outcome)

/-- A new version is lawful over the history. -/
theorem Lawful.write (h : Lawful kinds s) {version : Version} (written : Written kinds s version s.history) :
    Lawful kinds (s.write version) where
  versions newer other older form := by
    rcases newer with _ | ⟨first, newer⟩
    · obtain ⟨rfl, rfl⟩ := List.cons.inj form
      exact written
    · exact h.versions newer other older (List.cons.inj form).2
  ids := h.ids
  dispatches d inside := Reserved.lasts d.caller d.request s _ (.write s version) (h.dispatches d inside)
  once := h.once
  good := h.good.grows (.write s version) rfl
  workers broker := Remembered.lasts _ s _ (.write s version) (h.workers broker)

theorem Lawful.issue (h : Lawful kinds s) {id : JsString} (fresh : ∀ given ∈ s.issued, given.2 ≠ id) :
    Lawful kinds (s.issue c id) where
  versions newer version older form :=
    (h.versions newer version older form).mono (fun _ _ => fun same => same) (Quiet.issue c s id).grows.issued
  ids := by
    refine List.nodup_cons.mpr ⟨?_, h.ids⟩
    intro inside
    obtain ⟨given, member, same⟩ := List.mem_map.mp inside
    exact fresh given member same
  dispatches d inside := Reserved.lasts d.caller d.request s _ (Quiet.issue c s id).grows (h.dispatches d inside)
  once := h.once
  good := h.good.grows (Quiet.issue c s id).grows rfl
  workers broker := Remembered.lasts _ s _ (Quiet.issue c s id).grows (h.workers broker)

theorem Lawful.dispatch (h : Lawful kinds s) {request : AdapterRequest} (undispatched : Undispatched c s)
    (reserved : Reserved c request s) : Lawful kinds (s.dispatch c request) where
  versions := h.versions
  ids := h.ids
  dispatches d inside := by
    rcases List.mem_cons.mp inside with rfl | before
    · exact reserved
    · exact h.dispatches d before
  once := by
    refine List.nodup_cons.mpr ⟨?_, h.once⟩
    intro inside
    obtain ⟨d, member, same⟩ := List.mem_map.mp inside
    exact undispatched d member same
  good := h.good
  workers := h.workers

/-- Only the tasks, the flights and the workers have changed. -/
theorem Lawful.tasks (h : Lawful kinds s) (history : s'.history = s.history) (issued : s'.issued = s.issued)
    (dispatches : s'.dispatches = s.dispatches) (good : Good s')
    (workers : ∀ broker, Remembered (s'.workers broker) s') : Lawful kinds s' where
  versions newer version older form := by
    rw [history] at form
    refine (h.versions newer version older form).mono (fun _ _ => fun same => same) ?_
    rw [issued]
    exact fun _ inside => inside
  ids := by
    rw [issued]
    exact h.ids
  dispatches d inside := by
    rw [dispatches] at inside
    refine Reserved.lasts d.caller d.request s s' ⟨⟨[], history⟩, ?_⟩ (h.dispatches d inside)
    rw [issued]
    exact fun _ inside => inside
  once := by
    rw [dispatches]
    exact h.once
  good := good
  workers := workers

theorem Good.share (h : Good s) (broker : Broker) (expected : Expected) : Good (s.share broker expected) := by
  intro t task grant found outcome
  change (s.tasks ++ _)[t]? = some task at found
  rw [List.getElem?_append] at found
  split at found
  · exact h t task grant found outcome
  · rw [List.getElem?_singleton] at found
    split at found
    · obtain rfl := Option.some.inj found
      cases outcome
    · cases found

theorem Good.setTask (h : Good s) {t : TaskId} {task : Task}
    (granted : ∀ grant, task.outcome = some (.ok grant) → Granted grant s) : Good (s.setTask t task) := by
  intro t' other grant found outcome
  change (s.tasks.set t task)[t']? = some other at found
  rw [List.getElem?_set] at found
  split at found
  · split at found
    · obtain rfl := Option.some.inj found
      exact granted grant outcome
    · cases found
  · exact h t' other grant found outcome

/-- A broker remembers a grant of the store. -/
theorem Lawful.setWorker (h : Lawful kinds s) {broker : Broker} {worker : Worker} (remembered : Remembered worker s) :
    Lawful kinds (s.setWorker broker worker) := by
  refine h.tasks rfl rfl rfl h.good ?_
  intro other
  show Remembered (Function.update s.workers broker worker other) s
  by_cases same : other = broker
  · rw [same, Function.update_self]
    exact remembered
  · rw [Function.update_of_ne same]
    exact h.workers other

theorem Touch.lawful (h : Lawful kinds s) (touch : Touch c kind s s') (named : kinds c = some kind) :
    Lawful kinds s' := by
  cases touch with
  | same => exact h
  | write given change => exact h.write (.inr ⟨c, kind, _, rfl, named, rfl, given, change⟩)
  | issue fresh => exact h.issue fresh
  | dispatch undispatched reserved => exact h.dispatch undispatched reserved
  | share broker expected => exact h.tasks rfl rfl rfl (h.good.share broker expected) h.workers
  | worker names _ => exact h.setWorker (.inr ⟨_, _, names, rfl⟩)

theorem Touch.quiet {d : CallId} (touch : Touch c kind s s') (other : d ≠ c) : Quiet d s s' := by
  cases touch with
  | same => exact .refl d s
  | write => exact .write d s _
  | issue =>
    exact ⟨⟨⟨[], rfl⟩, fun _ inside => List.mem_cons_of_mem _ inside⟩, fun undispatched => undispatched⟩
  | dispatch =>
    refine ⟨⟨⟨[], rfl⟩, fun _ inside => inside⟩, ?_⟩
    intro undispatched e inside
    rcases List.mem_cons.mp inside with rfl | before
    · exact other.symm
    · exact undispatched e before
  | share broker expected => exact .share d s broker expected
  | worker => exact .setWorker d s _ _

theorem Touch.grows (touch : Touch c kind s s') : Grows s s' :=
  (touch.quiet (Nat.succ_ne_self c)).grows

theorem Touch.callers {n : Nat} (touch : Touch c kind s s') (callers : ∀ d ∈ s.dispatches, d.caller < n)
    (bound : c < n) : ∀ d ∈ s'.dispatches, d.caller < n := by
  cases touch with
  | dispatch =>
    intro d inside
    rcases List.mem_cons.mp inside with rfl | before
    · exact bound
    · exact callers d before
  | _ => exact callers

end Shares

/-! ### Worlds -/

/-- A call goes on from what the others have left it. -/
def Follows (c : CallId) (kind : Kind) (program : Program Op Answer Result) (s : Shared) : Prop :=
  ∃ past, Rely c past s ∧ Safe (effect c) (Rely c) (Touch c kind) (fun r s' => ∀ a, r = .ok a → Ends kind a s')
    program past

theorem Rely.trans {c : CallId} {s s' s'' : Shared} (first : Rely c s s') (second : Rely c s' s'') : Rely c s s'' :=
  ⟨first.1.trans second.1, second.2⟩

theorem Follows.later {c : CallId} {kind : Kind} {program : Program Op Answer Result} {s s' : Shared}
    (h : Follows c kind program s) (relied : Rely c s s') : Follows c kind program s' := by
  obtain ⟨past, before, safe⟩ := h
  exact ⟨past, before.trans relied, safe⟩

def World.kinds (world : World) : CallId → Option Kind := fun c => (world.calls c).map (·.kind)

structure Inv (world : World) : Prop where
  lawful : Lawful world.kinds world.shared
  callers : ∀ d ∈ world.shared.dispatches, d.caller < world.nextCall
  fresh : ∀ c, world.nextCall ≤ c → world.calls c = none
  running : ∀ c kind program, world.calls c = some { kind, progress := .running program } →
    Follows c kind program world.shared
  returned : ∀ c kind value, world.calls c = some { kind, progress := .returned (.ok value) } →
    Post kind value world.shared

theorem inv_initial : Inv .initial where
  lawful :=
    { versions := fun newer version older form => by
        cases newer <;> cases form
      ids := List.nodup_nil
      dispatches := fun d inside => by cases inside
      once := List.nodup_nil
      good := fun t task grant found => by cases found
      workers := fun _ => .inl rfl }
  callers d inside := by cases inside
  fresh _ _ := rfl
  running _ _ _ found := by cases found
  returned _ _ _ found := by cases found

section Steps

variable {world next : World} {c : CallId} {kind : Kind}

theorem calls_setCall (world : World) (c d : CallId) (call : Call) :
    (world.setCall c call).calls d = if d = c then some call else world.calls d := by
  show Function.update world.calls c (some call) d = _
  split
  · rename_i same
    rw [same, Function.update_self]
  · rename_i other
    exact Function.update_of_ne other _ _

/-- A step that no call takes. -/
theorem Inv.outside (h : Inv world) {s : Shared} (lawful : Lawful world.kinds s) (quiet : ∀ d, Quiet d world.shared s)
    (dispatches : s.dispatches = world.shared.dispatches) : Inv { world with shared := s } where
  lawful := lawful
  callers d inside := by
    change d ∈ s.dispatches at inside
    rw [dispatches] at inside
    exact h.callers d inside
  fresh := h.fresh
  running c kind program found := (h.running c kind program found).later ⟨quiet c, lawful.good⟩
  returned c kind value found := Post.lasts kind value _ _ (quiet c).grows (h.returned c kind value found)

/-- A call is as far as `progress`. -/
theorem Inv.setCall (h : Inv world) {n : Nat} {s : Shared} {progress : Progress}
    (lawful : Lawful (world.setCall c ⟨kind, progress⟩).kinds s) (quiet : ∀ d ≠ c, Quiet d world.shared s)
    (callers : ∀ d ∈ s.dispatches, d.caller < n) (later : world.nextCall ≤ n) (bound : c < n)
    (running : ∀ program, progress = .running program → Follows c kind program s)
    (returned : ∀ value, progress = .returned (.ok value) → Post kind value s) :
    Inv { world.setCall c ⟨kind, progress⟩ with shared := s, nextCall := n } := by
  have place {d : CallId} {other : Call} (there : (world.setCall c ⟨kind, progress⟩).calls d = some other) :
      world.calls d = some other ∧ d ≠ c ∨ d = c ∧ other = ⟨kind, progress⟩ := by
    rw [calls_setCall] at there
    split at there
    · rename_i same
      exact .inr ⟨same, (Option.some.inj there).symm⟩
    · rename_i distinct
      exact .inl ⟨there, distinct⟩
  constructor
  · exact lawful
  · exact callers
  · intro d late
    show (world.setCall _ _).calls d = none
    rw [calls_setCall, if_neg]
    · exact h.fresh d (later.trans late)
    · rintro rfl
      exact absurd bound (Nat.not_lt.mpr late)
  · intro d other program there
    rcases place there with ⟨before, distinct⟩ | ⟨rfl, same⟩
    · exact (h.running d other program before).later ⟨quiet d distinct, lawful.good⟩
    · obtain ⟨rfl, runs⟩ := Call.mk.inj same
      exact running program runs.symm
  · intro d other value there
    rcases place there with ⟨before, distinct⟩ | ⟨rfl, same⟩
    · exact Post.lasts other value _ _ (quiet d distinct).grows (h.returned d other value before)
    · obtain ⟨rfl, ends⟩ := Call.mk.inj same
      exact returned value ends.symm

theorem kinds_setCall (progress : Progress) (named : ∀ call, world.calls c = some call → call.kind = kind) :
    (world.setCall c ⟨kind, progress⟩).kinds c = some kind ∧
      ∀ d other, world.kinds d = some other → (world.setCall c ⟨kind, progress⟩).kinds d = some other := by
  unfold World.kinds
  refine ⟨by rw [calls_setCall, if_pos rfl]; rfl, ?_⟩
  intro d other found
  rw [calls_setCall]
  split
  · rename_i same
    obtain ⟨call, calls, rfl⟩ := Option.map_eq_some_iff.mp found
    rw [same] at calls
    rw [named call calls]
    rfl
  · exact found

theorem settle_same (s : Shared) (result : Result) (kind : Kind) :
    (s.settle result kind).history = s.history ∧ (s.settle result kind).issued = s.issued ∧
      (s.settle result kind).dispatches = s.dispatches ∧ (s.settle result kind).workers = s.workers := by
  unfold Shared.settle
  split
  · split <;> exact ⟨rfl, rfl, rfl, rfl⟩
  · exact ⟨rfl, rfl, rfl, rfl⟩

theorem outcomeOf_eq {result : Result} {grant : Grant} (h : outcomeOf result = some (.ok grant)) :
    result = .ok (.grant grant) := by
  rcases result with e | (snapshot | found | delivery)
  · cases h
  · cases h
  · cases h
    rfl
  · cases h

theorem Good.settle {s : Shared} (h : Good s) {result : Result}
    (ends : ∀ value, result = .ok value → Ends kind value s) : Good (s.settle result kind) := by
  unfold Shared.settle
  split
  · split
    · refine h.setTask ?_
      intro grant outcome
      exact (ends _ (outcomeOf_eq outcome)).1
    · exact h
  · exact h

/-- A call begins or goes on. -/
theorem Inv.goOn (h : Inv world) {n : Nat} {after : Shared} {program : Program Op Answer Result}
    (named : ∀ call, world.calls c = some call → call.kind = kind) (touch : Touch c kind world.shared after)
    (later : world.nextCall ≤ n) (bound : c < n)
    (safe : Safe (effect c) (Rely c) (Touch c kind) (fun r s' => ∀ a, r = .ok a → Ends kind a s') program after) :
    Inv { world.goOn c kind after program with nextCall := n } := by
  have callers := touch.callers (fun d inside => Nat.lt_of_lt_of_le (h.callers d inside) later) bound
  have lawful (progress : Progress) : Lawful (world.setCall c ⟨kind, progress⟩).kinds after := by
    obtain ⟨own, wider⟩ := kinds_setCall progress named
    exact touch.lawful (h.lawful.mono wider) own
  cases program with
  | ask op rest =>
    refine h.setCall (lawful _) (fun d => touch.quiet) callers later bound ?_ ?_
    · intro program same
      obtain rfl := Progress.running.inj same
      exact ⟨after, ⟨.refl c after, (lawful (.running (.ask op rest))).good⟩, safe⟩
    · intro value never
      cases never
  | done result =>
    obtain ⟨history, issued, dispatches, workers⟩ := settle_same after result kind
    have good : Good (after.settle result kind) := (lawful (.returned result)).good.settle safe
    have grows : Grows after (after.settle result kind) := by
      refine ⟨⟨[], history⟩, ?_⟩
      rw [issued]
      exact fun _ inside => inside
    have remembered (broker : Broker) : Remembered ((after.settle result kind).workers broker) (after.settle result kind) := by
      rw [workers]
      exact Remembered.lasts _ after _ grows ((lawful (.returned result)).workers broker)
    refine h.setCall ((lawful _).tasks history issued dispatches good remembered) ?_ ?_ later bound ?_ ?_
    · intro d other
      refine (touch.quiet other).trans ⟨grows, ?_⟩
      intro undispatched
      show ∀ e ∈ (after.settle result kind).dispatches, e.caller ≠ d
      rw [dispatches]
      exact undispatched
    · show ∀ d ∈ (after.settle result kind).dispatches, d.caller < n
      rw [dispatches]
      exact callers
    · intro program never
      cases never
    · intro value same
      exact Post.lasts kind value _ _ grows (safe value (Progress.returned.inj same)).1

theorem nextCall_goOn (world : World) (c : CallId) (kind : Kind) (s : Shared) (program : Program Op Answer Result) :
    { world.goOn c kind s program with nextCall := world.nextCall } = world.goOn c kind s program := by
  cases program <;> rfl

theorem Inv.begin (h : Inv world) (kind : Kind) : Inv (world.begin kind) := by
  refine h.goOn ?_ (.same _) (Nat.le_succ _) (Nat.lt_succ_self _) ?_
  · intro call found
    rw [h.fresh _ (Nat.le_refl _)] at found
    cases found
  · have undispatched : Undispatched world.nextCall world.shared := by
      intro d inside
      exact Nat.ne_of_lt (h.callers d inside)
    refine (kind.triple world.shared undispatched).mono (fun _ _ => id) ?_
    intro r s' ends
    exact ends.2

theorem Inv.step (h : Inv world) {event : Event} (step : Step world event next) : Inv next := by
  cases step with
  | call => exact h.begin _
  | @start t task found _ =>
    refine Inv.begin ?_ _
    have good : Good (world.shared.setTask t { task with started := true }) := by
      refine h.lawful.good.setTask ?_
      intro grant outcome
      exact h.lawful.good t task grant found outcome
    exact h.outside (h.lawful.tasks rfl rfl rfl good h.lawful.workers)
      (fun d => ⟨⟨⟨[], rfl⟩, fun _ inside => inside⟩, fun undispatched => undispatched⟩) rfl
  | @operation c kind op rest answer after found effected =>
    obtain ⟨past, relied, safe⟩ := h.running c kind _ found
    obtain ⟨touch, goesOn⟩ := safe world.shared relied answer after effected
    rw [← nextCall_goOn world c kind after (rest answer)]
    refine h.goOn ?_ touch (Nat.le_refl _) ?_ goesOn
    · intro call same
      rw [found] at same
      obtain rfl := Option.some.inj same
      rfl
    · by_contra late
      rw [h.fresh c (Nat.not_lt.mp late)] at found
      cases found
  | @rotate commitId version older form _ =>
    refine h.outside (h.lawful.write (.inl ⟨rfl, version, older, form, rfl⟩)) (fun d => .write d _ _) rfl
  | @land t task _ _ =>
    exact h.outside (h.lawful.tasks rfl rfl rfl h.lawful.good h.lawful.workers)
      (fun d => ⟨⟨⟨[], rfl⟩, fun _ inside => inside⟩, fun undispatched => undispatched⟩) rfl

theorem inv_of_run {trace : List Event} (run : Run brokers trace world) : Inv world := by
  refine @Run.invariant _ _ _ (fun _ world => Inv world) ?_ ?_ _ _ run
  · rintro _ rfl
    exact inv_initial
  · rintro _ _ _ _ h ⟨event, step, -⟩
    exact h.step step

end Steps

/-! ### Payloads -/

section Histories

variable {kinds : CallId → Option Kind} {s : Shared} {version : Version} {older newer : History}

theorem reservation_injective {source source' : Credential} {id id' : OpaqueId}
    (h : refreshReservationPayload source id = refreshReservationPayload source' id') : id = id' := by
  have fences := congrArg Fence.reservationId (Payload.blocked.inj h).2.2
  exact fences

/-- A reservation is written over the credential it reserves, or by a rotation of itself. -/
theorem Written.reservation (h : Written kinds s version older) {source : Credential} {id : OpaqueId}
    (raw : version.raw = serialize (refreshReservationPayload source id)) :
    ∃ before rest, older = before :: rest ∧ (before.raw = version.raw ∧ version.writer = none ∨
      (∃ c : Credential, before.raw = serialize (.ready c)) ∧ ∃ c, version.writer = some c ∧ Owned c s id) := by
  rcases h with ⟨writer, before, rest, rfl, same⟩ | ⟨c, kind, payload, writer, -, text, -, change⟩
  · exact ⟨before, rest, rfl, .inl ⟨same.symm, writer⟩⟩
  · have same : payload = refreshReservationPayload source id := serialize_injective (text.symm.trans raw)
    cases change with
    | install => cases same
    | restore => cases same
    | refresh => cases same
    | recover => cases same
    | @reserve source' id' before rest ready own =>
      obtain rfl := reservation_injective same
      exact ⟨before, rest, rfl, .inr ⟨⟨source', ready⟩, c, writer, own⟩⟩
    | block _ _ reason => exact absurd (Payload.blocked.inj same).2.1 reason

/-- The version that a call has written to reserve a credential. -/
theorem Lawful.reserver (h : Lawful kinds s) {source : Credential} {id : OpaqueId}
    (form : s.history = newer ++ version :: older) (raw : version.raw = serialize (refreshReservationPayload source id)) :
    ∃ first ∈ s.history, first.raw = version.raw ∧ ∃ c, first.writer = some c ∧ Owned c s id := by
  induction older generalizing version newer with
  | nil =>
    obtain ⟨before, rest, never, -⟩ := (h.versions _ _ _ form).reservation raw
    cases never
  | cons previous older ih =>
    obtain ⟨_, _, ⟨⟩, ⟨same, -⟩ | ⟨-, writer⟩⟩ := (h.versions _ _ _ form).reservation raw
    · have inside := @ih previous (newer ++ [version])
        (by rw [form, List.append_assoc]; rfl) (same.trans raw)
      rwa [same] at inside
    · exact ⟨version, by rw [form]; exact List.mem_append_right _ List.mem_cons_self, rfl, writer⟩

/-- Between the reservations of two attempts a credential was ready. -/
theorem Lawful.ready_between (h : Lawful kinds s) {source source' : Credential} {id id' : OpaqueId} {middle : History}
    {later : Version} (form : s.history = newer ++ later :: (middle ++ version :: older)) (other : id ≠ id')
    (raw : version.raw = serialize (refreshReservationPayload source id))
    (raw' : later.raw = serialize (refreshReservationPayload source' id')) :
    ∃ between ∈ middle, ∃ c : Credential, between.raw = serialize (.ready c) := by
  induction middle generalizing later newer with
  | nil =>
    obtain ⟨_, _, ⟨⟩, ⟨same, -⟩ | ⟨⟨c, ready⟩, -⟩⟩ := (h.versions _ _ _ form).reservation raw'
    · exact absurd (reservation_injective (serialize_injective (raw.symm.trans (same.trans raw')))) other
    · cases serialize_injective (raw.symm.trans ready)
  | cons first middle ih =>
    obtain ⟨_, _, ⟨⟩, ⟨same, -⟩ | ⟨ready, -⟩⟩ := (h.versions _ _ _ form).reservation raw'
    · obtain ⟨between, inside, found⟩ := @ih (newer ++ [later]) first
        (by rw [form, List.append_assoc]; rfl) (same.trans raw')
      exact ⟨between, List.mem_cons_of_mem _ inside, found⟩
    · exact ⟨first, List.mem_cons_self, ready⟩

/-- Every fence is the one of a reservation that the store has held. -/
theorem Lawful.fence (h : Lawful kinds s) {status : BlockedStatus} {reason : Reason} {fence : Fence}
    (form : s.history = newer ++ version :: older) (raw : version.raw = serialize (.blocked status reason fence)) :
    ∃ source id, fence = Credential.fence source id ∧
      ∃ reservation ∈ version :: older, reservation.raw = serialize (refreshReservationPayload source id) := by
  induction older generalizing version newer with
  | nil =>
    rcases h.versions _ _ _ form with ⟨-, before, rest, never, -⟩ | ⟨c, kind, payload, -, -, text, -, change⟩
    · cases never
    · cases change with
      | install => cases serialize_injective (text.symm.trans raw)
  | cons previous older ih =>
    rcases h.versions _ _ _ form with ⟨-, _, _, ⟨⟩, same⟩ | ⟨c, kind, payload, -, -, text, -, change⟩
    · obtain ⟨source, id, shows, reservation, inside, found⟩ := @ih previous (newer ++ [version])
        (by rw [form, List.append_assoc]; rfl) (same.symm.trans raw)
      exact ⟨source, id, shows, reservation, List.mem_cons_of_mem _ inside, found⟩
    · have same := serialize_injective (text.symm.trans raw)
      cases change with
      | install => cases same
      | restore => cases same
      | refresh => cases same
      | recover => cases same
      | @reserve source id =>
        exact ⟨source, id, (Payload.blocked.inj same).2.2.symm, version, List.mem_cons_self, text⟩
      | @block source id _ _ _ _ reserved =>
        exact ⟨source, id, (Payload.blocked.inj same).2.2.symm, previous,
          List.mem_cons_of_mem _ List.mem_cons_self, reserved⟩

/-- An identifier belongs to one call. -/
theorem Lawful.owner (h : Lawful kinds s) {c d : CallId} {id : OpaqueId} (own : Owned c s id) (other : Owned d s id) :
    c = d := by
  have same := List.inj_on_of_nodup_map h.ids own other rfl
  exact (Prod.mk.inj same).1

/-- A version carries an identifier: its commit ID, or the reservation ID of its fence. -/
def Version.Carries (version : Version) (id : JsString) : Prop :=
  version.commitId = id ∨
    ∃ status reason fence, version.raw = serialize (.blocked status reason fence) ∧ fence.reservationId.val = id

/-- The identifiers of a version were given to the call that has written it. -/
theorem Written.carries (h : Written kinds s version older) {c : CallId} (writer : version.writer = some c)
    {id : JsString} (carries : version.Carries id) : (c, id) ∈ s.issued := by
  rcases h with ⟨rotated, -⟩ | ⟨d, kind, payload, wrote, -, text, given, change⟩
  · rw [rotated] at writer
    cases writer
  · obtain rfl := Option.some.inj (wrote.symm.trans writer)
    rcases carries with rfl | ⟨status, reason, fence, raw, rfl⟩
    · exact given
    · have same := serialize_injective (text.symm.trans raw)
      cases change with
      | install => cases same
      | restore => cases same
      | refresh => cases same
      | recover => cases same
      | reserve _ own =>
        obtain rfl := (Payload.blocked.inj same).2.2
        exact own
      | block _ own =>
        obtain rfl := (Payload.blocked.inj same).2.2
        exact own

/-- An identifier is carried by the versions of one call. -/
theorem Lawful.carrier (h : Lawful kinds s) {other : Version} (inside : version ∈ s.history) (inside' : other ∈ s.history)
    {c d : CallId} (writer : version.writer = some c) (writer' : other.writer = some d) {id : JsString}
    (carries : version.Carries id) (carries' : other.Carries id) : c = d := by
  obtain ⟨newer, older, form⟩ := List.append_of_mem inside
  obtain ⟨newer', older', form'⟩ := List.append_of_mem inside'
  have own := (h.versions newer version older form).carries writer carries
  have own' := (h.versions newer' other older' form').carries writer' carries'
  have same := List.inj_on_of_nodup_map h.ids own own' rfl
  exact (Prod.mk.inj same).1

end Histories

/-! ### Workers -/

section Workers

variable {world next : World} {c : CallId} {kind : Kind} {broker : Broker}

theorem workers_goOn (world : World) (c : CallId) (kind : Kind) (s : Shared) (program : Program Op Answer Result) :
    (world.goOn c kind s program).shared.workers = s.workers := by
  cases program with
  | ask op rest => rfl
  | done result => exact (settle_same s result kind).2.2.2

/-- The user of a worker is changed by a login only. -/
theorem Touch.user {s s' : Shared} (touch : Touch c kind s s')
    (changed : (s'.workers broker).userId ≠ (s.workers broker).userId) :
    ∃ options, kind = .workerLoginParams broker options := by
  cases touch with
  | @worker other grant userId names admits =>
    by_cases same : broker = other
    · subst same
      have left : ((s.setWorker broker (.of grant userId)).workers broker).userId = some userId := by
        show (Function.update s.workers broker _ broker).userId = _
        rw [Function.update_self]
        rfl
      rw [left] at changed
      cases admits with
      | login named => exact ⟨_, named⟩
      | refresh _ _ user => exact absurd user.symm changed
    · refine absurd ?_ changed
      show (Function.update s.workers other _ broker).userId = _
      rw [Function.update_of_ne same]
  | _ => exact absurd rfl changed

theorem Inv.user (h : Inv world) {event : Event} (step : Step world event next)
    (changed : (next.shared.workers broker).userId ≠ (world.shared.workers broker).userId) :
    ∃ c options, event = .operation c ∧ world.kinds c = some (.workerLoginParams broker options) := by
  cases step with
  | @operation c kind op rest answer after found effected =>
    obtain ⟨past, relied, safe⟩ := h.running c kind _ found
    obtain ⟨touch, -⟩ := safe world.shared relied answer after effected
    rw [workers_goOn] at changed
    obtain ⟨options, rfl⟩ := touch.user changed
    exact ⟨c, options, rfl, by rw [World.kinds, found]; rfl⟩
  | call =>
    rw [World.begin, workers_goOn] at changed
    exact absurd rfl changed
  | start =>
    rw [World.begin, workers_goOn] at changed
    exact absurd rfl changed
  | rotate => exact absurd rfl changed
  | land => exact absurd rfl changed

/-- When a call returns a delivery, the worker of its broker has been given it. -/
theorem Inv.handed (h : Inv world) (step : Step world (.operation c) next) {d : Delivery}
    (returned : next.calls c = some { kind, progress := .returned (.ok (.delivery d)) })
    (on : kind.workerBroker = some broker) : Handed broker d next.shared := by
  cases step with
  | @operation _ kind' op rest answer after found effected =>
    obtain ⟨past, relied, safe⟩ := h.running c kind' _ found
    obtain ⟨-, goesOn⟩ := safe world.shared relied answer after effected
    revert goesOn returned
    cases rest answer with
    | ask op' rest' =>
      intro returned _
      have place : (world.setCall c ⟨kind', .running (.ask op' rest')⟩).calls c = _ := returned
      rw [calls_setCall, if_pos rfl] at place
      cases place
    | done result =>
      intro returned ends
      have place : (world.setCall c ⟨kind', .returned result⟩).calls c = _ := returned
      rw [calls_setCall, if_pos rfl] at place
      obtain ⟨rfl, same⟩ := Call.mk.inj (Option.some.inj place)
      have handed := (ends _ (Progress.returned.inj same)).2 d broker rfl on
      show Handed broker d (after.settle result kind')
      cases kind' with
      | workerLoginParams => exact handed
      | handleWorkerRefresh => exact handed
      | _ => cases on

end Workers

/-! ### The laws -/

variable {trace : List Event} {world : World}

/-- The payload moves from version to version by the changes that the calls may make. -/
structure PayloadLaws (world : World) : Prop where
  written : ∀ newer version older, world.shared.history = newer ++ version :: older →
    Written world.kinds world.shared version older
  /-- A commit ID or a reservation ID belongs to the writer of the versions that carry it. -/
  owner : ∀ version ∈ world.shared.history, ∀ other ∈ world.shared.history, ∀ c d id, version.writer = some c →
    other.writer = some d → version.Carries id → other.Carries id → c = d
  fences : ∀ newer version older status reason fence, world.shared.history = newer ++ version :: older →
    version.raw = serialize (.blocked status reason fence) → ∃ source id, fence = Credential.fence source id ∧
      ∃ reservation ∈ version :: older, reservation.raw = serialize (refreshReservationPayload source id)

theorem payloadLaws (run : Run brokers trace world) : PayloadLaws world := by
  have lawful := (inv_of_run run).lawful
  constructor
  · exact lawful.versions
  · intro version inside other inside' c d id writer writer' carries carries'
    exact lawful.carrier inside inside' writer writer' carries carries'
  · intro newer version older status reason fence form raw
    exact lawful.fence form raw

/-- The adapter is called for a reservation that its caller has written, and once for each. -/
structure DispatchLaws (s : Shared) : Prop where
  reserved : ∀ d ∈ s.dispatches, ∃ version ∈ s.history, version.writer = some d.caller ∧
    version.raw = serialize (refreshReservationPayload d.request.credential d.request.attemptId)
  /-- The store has held the reservation at the generation that the adapter is told. -/
  held : ∀ d ∈ s.dispatches, Held d.request.expectedGeneration
    (serialize (refreshReservationPayload d.request.credential d.request.attemptId)) s
  once : (s.dispatches.map (·.request.attemptId)).Nodup
  separated : ∀ newer later middle version older source source' id id',
    s.history = newer ++ later :: (middle ++ version :: older) → id ≠ id' →
    version.raw = serialize (refreshReservationPayload source id) →
    later.raw = serialize (refreshReservationPayload source' id') →
    ∃ between ∈ middle, ∃ c : Credential, between.raw = serialize (.ready c)

theorem dispatchLaws (run : Run brokers trace world) : DispatchLaws world.shared := by
  have lawful := (inv_of_run run).lawful
  constructor
  · intro d inside
    obtain ⟨⟨bound, version, older, past, raw⟩, own⟩ := lawful.dispatches d inside
    obtain ⟨newer, form⟩ := History.past_suffix world.shared.history d.request.expectedGeneration
    rw [past] at form
    obtain ⟨first, member, same, c, writer, own'⟩ := lawful.reserver form.symm raw
    obtain rfl := lawful.owner own own'
    exact ⟨first, member, writer, same.trans raw⟩
  · intro d inside
    exact (lawful.dispatches d inside).1
  · rw [List.Nodup, List.pairwise_map]
    have callers := lawful.once
    rw [List.Nodup, List.pairwise_map] at callers
    refine callers.imp_of_mem ?_
    intro d e inside inside' distinct same
    have own' := (lawful.dispatches e inside').2
    rw [← same] at own'
    exact distinct (lawful.owner (lawful.dispatches d inside).2 own')
  · intro newer later middle version older source source' id id' form other raw raw'
    exact lawful.ready_between form other raw raw'

/-- What calls return, and what brokers remember of their workers, shows credentials that the store has held. -/
structure GrantLaws (world : World) : Prop where
  grants : ∀ c kind grant, world.calls c = some { kind, progress := .returned (.ok (.grant grant)) } →
    Granted grant world.shared
  deliveries : ∀ c kind d, world.calls c = some { kind, progress := .returned (.ok (.delivery d)) } →
    Delivered d world.shared
  /-- A worker that asks for a refresh gets a token of the account that it has named. -/
  accounts : ∀ c broker params d,
    world.calls c = some { kind := .handleWorkerRefresh broker params, progress := .returned (.ok (.delivery d)) } →
    workerParams params = some d.chatgptAccountId
  remembered : ∀ broker, Remembered (world.shared.workers broker) world.shared
  /-- In the step in which a call returns, the broker remembers the token that is delivered, and its user. -/
  handed : ∀ c kind broker d next, Step world (.operation c) next →
    next.calls c = some { kind, progress := .returned (.ok (.delivery d)) } → kind.workerBroker = some broker →
    Handed broker d next.shared
  /-- A refresh stays with the user that the broker remembers: only a login changes it. -/
  users : ∀ event broker next, Step world event next →
    (next.shared.workers broker).userId ≠ (world.shared.workers broker).userId →
    ∃ c options, event = .operation c ∧ world.kinds c = some (.workerLoginParams broker options)

theorem grantLaws (run : Run brokers trace world) : GrantLaws world := by
  have inv := inv_of_run run
  constructor
  · intro c kind grant found
    exact inv.returned c kind _ found
  · intro c kind d found
    exact (inv.returned c kind _ found).1
  · intro c broker params d found
    exact (inv.returned c _ _ found).2 broker params rfl
  · exact inv.lawful.workers
  · intro c kind broker d next step returned on
    exact inv.handed step returned on
  · intro event broker next step changed
    exact inv.user step changed

/-! ### A run -/

/-- What the surroundings choose for an operation where nothing fails. -/
inductive Choice where
  | only
  | uuid (id : JsString)
  | clock (now : JsNumber)
  | adapter (answer : Except AdapterError (Option JsValue))

/-- The answer to an operation, and what is shared after it. -/
def respond (c : CallId) (s : Shared) (choice : Choice) : (op : Op) → Option (Answer op × Shared)
  | .read => some (.ok s.history.current, s)
  | .compareAndSwap request =>
      if s.history.length = request.expectedGeneration ∧ s.history.length < maxGeneration then
        some (.ok (casResult request false),
          s.write { raw := request.payload, commitId := request.commitId, writer := some c })
      else none
  | .randomUUID =>
      match choice with
      | .uuid id => if ∀ given ∈ s.issued, given.2 ≠ id then some (some id, s.issue c id) else none
      | _ => none
  | .now =>
      match choice with
      | .clock now => some (some now, s)
      | _ => none
  | .refresh request =>
      match choice with
      | .adapter answer => some (answer, s.dispatch c request)
      | _ => none
  | .sharedRefresh broker expected =>
      match s.flight broker with
      | some f => some (s.joins broker f, s)
      | none => some (some s.tasks.length, s.share broker expected)
  | .joinSharedRefresh broker =>
      some (match s.flight broker with
        | some f => (s.joins broker f).map some
        | none => some none, s)
  | .awaitTask t => do
      let task ← s.tasks[t]?
      let outcome ← task.outcome
      some (outcome, s)
  | .worker broker action =>
      let left := s.setWorker broker (action (s.workers broker)).2
      some ((action (s.workers broker)).1.map fun _ => left.workers broker, left)

theorem respond_effect {c : CallId} {s after : Shared} {choice : Choice} {op : Op} {answer : Answer op}
    (h : respond c s choice op = some (answer, after)) : effect c s op answer after := by
  cases op with
  | read =>
    cases h
    exact ⟨rfl, rfl⟩
  | compareAndSwap request =>
    obtain ⟨⟨generation, room⟩, same⟩ := Option.ite_none_right_eq_some.mp h
    cases same
    exact .inl ⟨⟨generation, room, rfl⟩, rfl⟩
  | randomUUID =>
    cases choice with
    | uuid id =>
      obtain ⟨fresh, same⟩ := Option.ite_none_right_eq_some.mp h
      cases same
      exact ⟨fresh, rfl⟩
    | _ => cases h
  | now =>
    cases choice with
    | clock now =>
      cases h
      exact rfl
    | _ => cases h
  | refresh request =>
    cases choice with
    | adapter outcome =>
      cases h
      exact rfl
    | _ => cases h
  | sharedRefresh broker expected =>
    unfold respond at h
    unfold effect
    dsimp only at h ⊢
    cases found : s.flight broker with
    | some f =>
      rw [found] at h
      cases h
      exact ⟨rfl, rfl⟩
    | none =>
      rw [found] at h
      cases h
      exact ⟨rfl, rfl⟩
  | joinSharedRefresh broker =>
    cases h
    exact ⟨rfl, rfl⟩
  | awaitTask t =>
    obtain ⟨task, found, h⟩ := Option.bind_eq_some_iff.mp h
    obtain ⟨outcome, ended, h⟩ := Option.bind_eq_some_iff.mp h
    cases h
    exact ⟨rfl, task, found, ended⟩
  | worker broker action =>
    cases h
    exact ⟨rfl, rfl⟩

/-- A step with what is chosen in it. -/
inductive Move where
  | call (kind : Kind)
  | start (t : TaskId)
  | operation (c : CallId) (choice : Choice)
  | land (t : TaskId)

def Move.event : Move → Event
  | .call kind => .call kind
  | .start t => .start t
  | .operation c _ => .operation c
  | .land t => .land t

def performs (world : World) : Move → Option World
  | .call kind => if kind.isMethod = true then some (world.begin kind) else none
  | .start t => do
      let task ← world.shared.tasks[t]?
      if task.started = false then
        some ({ world with shared := world.shared.setTask t { task with started := true } }.begin
          (.refreshOnce t task.broker task.expected))
      else none
  | .operation c choice => do
      let call ← world.calls c
      match call.progress with
      | .running (.ask op next) => do
          let (answer, after) ← respond c world.shared choice op
          some (world.goOn c call.kind after (next answer))
      | _ => none
  | .land t => do
      let task ← world.shared.tasks[t]?
      if task.outcome.isSome = true then some { world with shared := world.shared.land t } else none

theorem step_of_performs {world next : World} {move : Move} (h : performs world move = some next) :
    Step world move.event next := by
  cases move with
  | call kind =>
    obtain ⟨method, same⟩ := Option.ite_none_right_eq_some.mp h
    cases same
    exact .call method
  | start t =>
    obtain ⟨task, found, h⟩ := Option.bind_eq_some_iff.mp h
    obtain ⟨waits, same⟩ := Option.ite_none_right_eq_some.mp h
    cases same
    exact .start found waits
  | operation c choice =>
    obtain ⟨⟨kind, progress⟩, found, h⟩ := Option.bind_eq_some_iff.mp h
    cases progress with
    | returned result => cases h
    | running program =>
      cases program with
      | done result => cases h
      | ask op rest =>
        obtain ⟨⟨answer, after⟩, answered, h⟩ := Option.bind_eq_some_iff.mp h
        cases h
        exact .operation found (respond_effect answered)
  | land t =>
    obtain ⟨task, found, h⟩ := Option.bind_eq_some_iff.mp h
    obtain ⟨ended, same⟩ := Option.ite_none_right_eq_some.mp h
    cases same
    exact .land found ended

theorem run_of_performs {trace : List Event} {world last : World} (run : Run brokers trace world) {moves : List Move}
    (ran : moves.foldlM performs world = some last) : ∃ trace, Run brokers trace last := by
  induction moves generalizing trace world with
  | nil =>
    obtain rfl := Option.some.inj ran
    exact ⟨trace, run⟩
  | cons move moves ih =>
    rw [List.foldlM_cons] at ran
    obtain ⟨middle, taken, ran⟩ := Option.bind_eq_some_iff.mp ran
    exact ih (run.step ⟨move.event, step_of_performs taken, rfl⟩) ran

/-- The value of a credential. -/
def Credential.value (c : Credential) : JsValue := record readyCredentialKeys c.val.values

/-- A text that is evaluated in short pieces. -/
def pieces (texts : List String) : JsString := texts.flatMap js

/-- A token of the account `a` and the user `u`; `exp` is the piece of its payload that has the expiry. -/
def sampleToken (exp : String) : JsString :=
  pieces ["e30.", exp, "sImh0dHBzOi8", "vYXBpLm9wZW5", "haS5jb20vYXV", "0aCI6eyJjaGF", "0Z3B0X2FjY29", "1bnRfaWQiOiJ",
    "hIiwiY2hhdGd", "wdF91c2VyX2l", "kIjoidSJ9fQ.", "AA"]

def sampleFields (accessToken refreshToken expiresAt : JsString) : CredentialFields where
  accessToken
  accountId := js "a"
  authJson := pieces ["\x7b\"auth_mode\":", "\"chatgpt\",", "\"tokens\":\x7b", "\"access_token\"", ":\""] ++ accessToken ++
    pieces ["\",\"refresh_", "token\":\""] ++ refreshToken ++ pieces ["\",\"id_token\"", ":\"e30.e30.AA", "\"\x7d\x7d"]
  expiresAt
  planType := none
  userId := js "u"

def firstFields : CredentialFields :=
  sampleFields (sampleToken "eyJleHAiOjEwMDAwMDAwMDA") (js "r") (js "2001-09-09T01:46:40.000Z")

def secondFields : CredentialFields :=
  sampleFields (sampleToken "eyJleHAiOjEwMDAwMDM2MDA") (js "s") (js "2001-09-09T02:46:40.000Z")

theorem firstFields_isReady : IsReady firstFields := by decide +kernel

theorem secondFields_isReady : IsReady secondFields := by decide +kernel

def firstCredential : Credential := ⟨firstFields, firstFields_isReady⟩

def secondCredential : Credential := ⟨secondFields, secondFields_isReady⟩

def sampleBroker : Broker where
  process := 0
  number := 0
  coordinationKey := 0
  minTokenTtlSeconds := ofNat 120
  refreshAdapterIdentity := 0
  refreshAdapterOwner := 0

/-- The refresh that the worker of account `a` asks for. -/
def sampleParams : JsValue :=
  .object [(js "previousAccountId", .string (js "a")), (js "reason", .string (js "unauthorized"))]

/-- The clock, 1000 s before the first credential expires. -/
def beforeExpiry : Choice := .clock (ofNat 999999000000)

def invalidGrant : AdapterError :=
  { code := some (.string (js "invalid_grant")), postDispatch := none, preDispatch := none, reason := none }

def operations (c : CallId) (choices : List Choice) : List Move := choices.map (.operation c)

/-- Two refreshes: the worker gets the token of the first, and the adapter refuses the second. -/
def refreshes : List Move :=
  .call (.installCredential firstCredential.value) :: operations 0 [.only, .uuid (js "c1"), .only, .only] ++
  .call (.workerLoginParams sampleBroker none) :: operations 1 [.only, beforeExpiry, .only] ++
  -- the call of the worker waits for the first task, which reserves, dispatches and commits
  .call (.handleWorkerRefresh sampleBroker sampleParams) :: operations 2 [.only, .only, .only, .only] ++
  .start 0 :: operations 3 [.only, beforeExpiry, .uuid (js "attempt-1"), .uuid (js "c2"), .only, .only,
    .adapter (.ok (some secondCredential.value)), beforeExpiry, .uuid (js "c3"), .only, .only] ++
  operations 2 [.only, beforeExpiry, .only] ++ [.land 0] ++
  .call (.getGrant sampleBroker none) :: operations 4 [.only, beforeExpiry] ++
  -- the second task replaces its reservation by a fence
  .call (.refreshGrant sampleBroker none) :: operations 5 [.only, .only] ++
  .start 1 :: operations 6 [.only, beforeExpiry, .uuid (js "attempt-2"), .uuid (js "c4"), .only, .only,
    .adapter (.error invalidGrant), .uuid (js "c5"), .only, .only] ++
  operations 5 [.only]

/-- The token that a call has returned. -/
def World.token (world : World) (c : CallId) : Option JsString := do
  let call ← world.calls c
  match call.progress with
  | .returned (.ok (.grant grant)) => some grant.accessToken
  | .returned (.ok (.delivery d)) => some d.accessToken
  | _ => none

/-- The newest version is a fence. -/
def World.blocked (world : World) : Bool :=
  match world.shared.history.head?.bind fun version => parseStoredPayload version.raw with
  | some (.blocked .reauthRequired .invalidGrant fence) => fence.reservationId.val = js "attempt-2"
  | _ => false

/-- The versions, the dispatches and the tokens of the run. -/
structure Refreshed (world : World) : Prop where
  versions : world.shared.history.map (fun version => (version.commitId, version.writer)) =
    [(js "c5", some 6), (js "c4", some 6), (js "c3", some 3), (js "c2", some 3), (js "c1", some 0)]
  blocked : world.blocked = true
  dispatches : world.shared.dispatches.map (fun d => (d.request.attemptId.val, d.caller)) =
    [(js "attempt-2", 6), (js "attempt-1", 3)]
  /-- Of the login, the refresh of the worker and a grant. -/
  tokens : [world.token 1, world.token 2, world.token 4] =
    [some firstFields.accessToken, some secondFields.accessToken, some secondFields.accessToken]

instance refreshedDecidable (world : World) : Decidable (Refreshed world) :=
  decidable_of_iff (_ ∧ _ ∧ _ ∧ _)
    ⟨fun h => ⟨h.1, h.2.1, h.2.2.1, h.2.2.2⟩, fun h => ⟨h.versions, h.blocked, h.dispatches, h.tokens⟩⟩

theorem refreshes_refreshed : (refreshes.foldlM performs .initial).any (fun world => decide (Refreshed world)) = true := by
  decide +kernel

theorem run_refreshes : ∃ trace world, Run brokers trace world ∧ Refreshed world := by
  obtain ⟨world, ran, refreshed⟩ := (Option.any_eq_true _ _).mp refreshes_refreshed
  obtain ⟨trace, run⟩ := run_of_performs (.start rfl) ran
  exact ⟨trace, world, run, of_decide_eq_true refreshed⟩

theorem payloadLaws_refreshed : ∃ trace world, Run brokers trace world ∧ Refreshed world ∧ PayloadLaws world := by
  obtain ⟨trace, world, run, refreshed⟩ := run_refreshes
  exact ⟨trace, world, run, refreshed, payloadLaws run⟩

theorem dispatchLaws_refreshed : ∃ trace world, Run brokers trace world ∧ Refreshed world ∧ DispatchLaws world.shared := by
  obtain ⟨trace, world, run, refreshed⟩ := run_refreshes
  exact ⟨trace, world, run, refreshed, dispatchLaws run⟩

theorem grantLaws_refreshed : ∃ trace world, Run brokers trace world ∧ Refreshed world ∧ GrantLaws world := by
  obtain ⟨trace, world, run, refreshed⟩ := run_refreshes
  exact ⟨trace, world, run, refreshed, grantLaws run⟩

end PortableCodex.AuthBroker
