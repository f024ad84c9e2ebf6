import PortableCodex.AuthBroker.Calls

/-!
What one call does to the store, whatever the other calls do meanwhile.

`Change` lists the changes of the payload that a call can make, and `Touch` what one operation of a call
adds to what is shared. A commit takes effect at the generation it names, so what a call has read at that
generation (`Seen`) is what it replaces. Everything a call knows lasts (`Grows`), but for the fact that it
has not called the adapter, which lasts until it does (`Quiet`).
-/

namespace PortableCodex.AuthBroker

open Js ProviderState Traces

/-! ### Histories -/

namespace History

theorem past_length (history : History) : history.past history.length = history := by
  rw [past, Nat.sub_self, List.drop_zero]

theorem past_zero (history : History) : history.past 0 = [] := by
  rw [past, Nat.sub_zero, List.drop_length]

theorem past_append (more history : History) {n : Nat} (h : n ≤ history.length) :
    (more ++ history).past n = history.past n := by
  rw [past, past, List.length_append, Nat.add_sub_assoc h, List.drop_append, List.drop_of_length_le (Nat.le_add_right _ _),
    List.nil_append, Nat.add_sub_cancel_left]

theorem length_past {history : History} {n : Nat} (h : n ≤ history.length) : (history.past n).length = n := by
  rw [past, List.length_drop]
  omega

theorem past_suffix (history : History) (n : Nat) : history.past n <:+ history := List.drop_suffix _ _

end History

/-! ### Changes -/

/-- The identifier was given to the call. -/
def Owned (c : CallId) (s : Shared) (id : OpaqueId) : Prop := (c, id.val) ∈ s.issued

/-- The credential may replace the one of a fence. -/
structure Replaces (c : Credential) (fence : Fence) : Prop where
  account : identityHash c.val.accountId = fence.sourceAccountIdHash
  user : identityHash c.val.userId = fence.sourceUserIdHash
  accessToken : accessTokenHash c.val.accessToken ≠ fence.sourceAccessTokenHash
  refreshToken : refreshTokenHash c ≠ fence.sourceRefreshTokenHash

/-- The changes of the payload by a call: what it writes over a history. -/
inductive Change (kind : Kind) (owned : OpaqueId → Prop) : History → Payload → Prop where
  | install {value c history} : kind = .installCredential value → validateReadyCredential value = some c →
      (∀ version ∈ history.head?, ∃ c', version.raw = serialize (.ready c')) → Change kind owned history (.ready c)
  | reserve {source id version older} : version.raw = serialize (.ready source) → owned id →
      Change kind owned (version :: older) (refreshReservationPayload source id)
  | restore {source id version older} : version.raw = serialize (refreshReservationPayload source id) → owned id →
      Change kind owned (version :: older) (.ready source)
  | refresh {source id c version older} : version.raw = serialize (refreshReservationPayload source id) → owned id →
      source.Succeeds c → Change kind owned (version :: older) (.ready c)
  | block {source id status reason version older} : version.raw = serialize (refreshReservationPayload source id) →
      owned id → reason ≠ .refreshInProgress →
      Change kind owned (version :: older) (.blocked status reason (source.fence id))
  | recover {value request status reason fence c version older} : kind = .recoverRefreshReservation value →
      recoverRequest value = some request → validateReadyCredential request.credential = some c →
      version.raw = serialize (.blocked status reason fence) → older.length + 1 = request.expectedGeneration →
      fence.reservationId = request.reservationId → Replaces c fence →
      Change kind owned (version :: older) (.ready c)

theorem Change.mono {kind : Kind} {owned owned' : OpaqueId → Prop} {history : History} {payload : Payload}
    (h : Change kind owned history payload) (wider : ∀ id, owned id → owned' id) : Change kind owned' history payload := by
  cases h with
  | install named valid ready => exact .install named valid ready
  | reserve raw own => exact .reserve raw (wider _ own)
  | restore raw own => exact .restore raw (wider _ own)
  | refresh raw own succeeds => exact .refresh raw (wider _ own) succeeds
  | block raw own reason => exact .block raw (wider _ own) reason
  | recover named read valid raw generation id replaces => exact .recover named read valid raw generation id replaces

/-! ### What lasts -/

/-- The history and the identifiers only grow. -/
structure Grows (s s' : Shared) : Prop where
  history : ∃ more, s'.history = more ++ s.history
  issued : ∀ given ∈ s.issued, given ∈ s'.issued

def Undispatched (c : CallId) (s : Shared) : Prop := ∀ d ∈ s.dispatches, d.caller ≠ c

structure Quiet (c : CallId) (s s' : Shared) : Prop where
  grows : Grows s s'
  undispatched : Undispatched c s → Undispatched c s'

theorem Grows.refl (s : Shared) : Grows s s := ⟨⟨[], rfl⟩, fun _ => id⟩

theorem Grows.trans {s s' s'' : Shared} (first : Grows s s') (second : Grows s' s'') : Grows s s'' := by
  obtain ⟨⟨more, grown⟩, issued⟩ := first
  obtain ⟨⟨further, grown'⟩, issued'⟩ := second
  exact ⟨⟨further ++ more, by rw [grown', grown, List.append_assoc]⟩, fun given inside => issued' _ (issued _ inside)⟩

theorem Quiet.refl (c : CallId) (s : Shared) : Quiet c s s := ⟨.refl s, id⟩

theorem Quiet.trans {c : CallId} {s s' s'' : Shared} (first : Quiet c s s') (second : Quiet c s' s'') : Quiet c s s'' :=
  ⟨first.grows.trans second.grows, fun h => second.undispatched (first.undispatched h)⟩

theorem Grows.length {s s' : Shared} (h : Grows s s') : s.history.length ≤ s'.history.length := by
  obtain ⟨⟨more, grown⟩, -⟩ := h
  rw [grown, List.length_append]
  omega

theorem Grows.past {s s' : Shared} (h : Grows s s') {n : Nat} (bound : n ≤ s.history.length) :
    s'.history.past n = s.history.past n := by
  obtain ⟨⟨more, grown⟩, -⟩ := h
  rw [grown, History.past_append _ _ bound]

/-- The store has held a text at a generation. -/
def Held (generation : Nat) (raw : JsString) (s : Shared) : Prop :=
  generation ≤ s.history.length ∧ ∃ version older, s.history.past generation = version :: older ∧ version.raw = raw

theorem Held.lasts (generation : Nat) (raw : JsString) : Lasts Grows (Held generation raw) := by
  rintro s s' grows ⟨bound, version, older, past, same⟩
  exact ⟨bound.trans grows.length, version, older, (grows.past bound).trans past, same⟩

/-- What was read. -/
def Seen (canonical : Canonical) (s : Shared) : Prop :=
  Held canonical.generation canonical.rawPayload s ∧ canonical.rawPayload = serialize canonical.payload

/-- A call may write a payload at a generation. -/
def Permits (c : CallId) (kind : Kind) (generation : Nat) (payload : Payload) (s : Shared) : Prop :=
  generation ≤ s.history.length ∧ Change kind (Owned c s) (s.history.past generation) payload

/-- A grant shows a credential that the store has held. -/
def Granted (grant : Grant) (s : Shared) : Prop :=
  ∃ c : Credential, Held grant.generation (serialize (.ready c)) s ∧ grant = sensitiveGrant grant.generation c

/-- A delivery shows a grant of the store. -/
def Delivered (d : Delivery) (s : Shared) : Prop :=
  ∃ grant, Granted grant s ∧ deliver grant = { d with type := none }

/-- A grant of the store with the user of its token. -/
def Names (grant : Grant) (userId : JsString) (s : Shared) : Prop :=
  Granted grant s ∧ userIdFromAccessToken grant.accessToken = some userId

/-- What a broker remembers is a grant of the store. -/
def Remembered (worker : Worker) (s : Shared) : Prop :=
  worker = .absent ∨ ∃ grant userId, Names grant userId s ∧ worker = .of grant userId

/-- A dispatch of a credential that the call has reserved. -/
def Reserved (c : CallId) (request : AdapterRequest) (s : Shared) : Prop :=
  Held request.expectedGeneration (serialize (refreshReservationPayload request.credential request.attemptId)) s ∧
    Owned c s request.attemptId

section Lasting

variable {c : CallId} {kind : Kind}

theorem owned_lasts (c : CallId) (id : OpaqueId) : Lasts Grows fun s => Owned c s id :=
  fun _ _ grows own => grows.issued _ own

theorem Seen.lasts (canonical : Canonical) : Lasts Grows (Seen canonical) := by
  rintro s s' grows ⟨held, raw⟩
  exact ⟨Held.lasts _ _ s s' grows held, raw⟩

theorem Permits.lasts (c : CallId) (kind : Kind) (generation : Nat) (payload : Payload) :
    Lasts Grows (Permits c kind generation payload) := by
  rintro s s' grows ⟨bound, change⟩
  refine ⟨bound.trans grows.length, ?_⟩
  rw [grows.past bound]
  exact change.mono fun id own => grows.issued _ own

theorem Granted.lasts (grant : Grant) : Lasts Grows (Granted grant) := by
  rintro s s' grows ⟨credential, held, same⟩
  exact ⟨credential, Held.lasts _ _ s s' grows held, same⟩

theorem Delivered.lasts (d : Delivery) : Lasts Grows (Delivered d) := by
  rintro s s' grows ⟨grant, granted, shows⟩
  exact ⟨grant, Granted.lasts grant s s' grows granted, shows⟩

theorem Names.lasts (grant : Grant) (userId : JsString) : Lasts Grows (Names grant userId) := by
  rintro s s' grows ⟨granted, named⟩
  exact ⟨Granted.lasts grant s s' grows granted, named⟩

theorem Remembered.lasts (worker : Worker) : Lasts Grows (Remembered worker) := by
  rintro s s' grows (absent | ⟨grant, userId, names, same⟩)
  · exact .inl absent
  · exact .inr ⟨grant, userId, Names.lasts grant userId s s' grows names, same⟩

/-- The token of a grant of the store names its user. -/
theorem Granted.names {grant : Grant} {s : Shared} (h : Granted grant s) : ∃ userId, Names grant userId s := by
  obtain ⟨credential, held, shows⟩ := h
  refine ⟨credential.val.userId, ⟨credential, held, shows⟩, ?_⟩
  rw [shows]
  exact credential.userId_eq

theorem Reserved.lasts (c : CallId) (request : AdapterRequest) : Lasts Grows (Reserved c request) := by
  rintro s s' grows ⟨held, own⟩
  exact ⟨Held.lasts _ _ s s' grows held, grows.issued _ own⟩

/-- What lasts while the state grows lasts while the call does not dispatch. -/
theorem quiet_of_grows {holds : Shared → Prop} (h : Lasts Grows holds) : Lasts (Quiet c) holds :=
  fun s s' quiet => h s s' quiet.grows

theorem lasts_true {later : Shared → Shared → Prop} : Lasts later fun _ => True := fun _ _ _ _ => True.intro

end Lasting

/-! ### Steps of a call -/

/-- The broker whose worker a call sets. -/
def Kind.workerBroker : Kind → Option Broker
  | .workerLoginParams broker _ => some broker
  | .handleWorkerRefresh broker _ => some broker
  | _ => none

/-- The grants that a call may give to the worker of its broker: a login any, a refresh those of the account that
the worker has named and of the user that the broker remembers. -/
inductive Admits (kind : Kind) (broker : Broker) (before : Worker) (grant : Grant) (userId : JsString) : Prop where
  | login {options} : kind = .workerLoginParams broker options → Admits kind broker before grant userId
  | refresh {params} : kind = .handleWorkerRefresh broker params → workerParams params = some grant.accountId →
      before.userId = some userId → Admits kind broker before grant userId

/-- What an operation of a call adds. -/
inductive Touch (c : CallId) (kind : Kind) : Shared → Shared → Prop where
  | same (s) : Touch c kind s s
  | write {s commitId payload} : (c, commitId) ∈ s.issued → Change kind (Owned c s) s.history payload →
      Touch c kind s (s.write { raw := serialize payload, commitId, writer := some c })
  | issue {s id} : (∀ given ∈ s.issued, given.2 ≠ id) → Touch c kind s (s.issue c id)
  | dispatch {s request} : Undispatched c s → Reserved c request s → Touch c kind s (s.dispatch c request)
  | share (s broker expected) : Touch c kind s (s.share broker expected)
  | worker {s broker grant userId} : Names grant userId s → Admits kind broker (s.workers broker) grant userId →
      Touch c kind s (s.setWorker broker (.of grant userId))

/-- The outcomes of the tasks are grants of the store. -/
def Good (s : Shared) : Prop :=
  ∀ (t : TaskId) (task : Task) (grant : Grant), s.tasks[t]? = some task → task.outcome = some (.ok grant) →
    Granted grant s

def Rely (c : CallId) (s s' : Shared) : Prop := Quiet c s s' ∧ Good s'

def setting (c : CallId) (kind : Kind) : Setting Op Answer Shared where
  effect := effect c
  rely := Rely c
  guarantee := Touch c kind

section Orders

variable (c : CallId) (kind : Kind)

theorem order_quiet : (setting c kind).Order (Quiet c) where
  refl := .refl c
  trans _ _ _ := .trans
  relied _ _ relied := relied.1

theorem order_grows : (setting c kind).Order Grows where
  refl := .refl
  trans _ _ _ := .trans
  relied _ _ relied := relied.1.grows

end Orders

theorem Grows.write (s : Shared) (version : Version) : Grows s (s.write version) :=
  ⟨⟨[version], rfl⟩, fun _ => id⟩

theorem Quiet.write (c : CallId) (s : Shared) (version : Version) : Quiet c s (s.write version) :=
  ⟨.write s version, id⟩

theorem Quiet.issue (c : CallId) (s : Shared) (id : JsString) : Quiet c s (s.issue c id) :=
  ⟨⟨⟨[], rfl⟩, fun _ => List.mem_cons_of_mem _⟩, fun h => h⟩

theorem Quiet.share (c : CallId) (s : Shared) (broker : Broker) (expected : Expected) :
    Quiet c s (s.share broker expected) := ⟨⟨⟨[], rfl⟩, fun _ => id⟩, id⟩

theorem Quiet.setWorker (c : CallId) (s : Shared) (broker : Broker) (worker : Worker) :
    Quiet c s (s.setWorker broker worker) := ⟨⟨⟨[], rfl⟩, fun _ => id⟩, id⟩

theorem setWorker_self (s : Shared) (broker : Broker) : s.setWorker broker (s.workers broker) = s := by
  rw [Shared.setWorker, Function.update_eq_self]

/-! ### Operations -/

section Operations

variable {c : CallId} {kind : Kind} {pre : Shared → Prop}

section Checks

variable {later : Shared → Shared → Prop} {A B : Type} {post : B → Shared → Prop}

/-- A program after a value that has to be there. -/
theorem required_then (order : (setting c kind).Order later) {value : Option A} {e : BrokerError} {next : A → Method B}
    (rest : ∀ a, value = some a → Triple (setting c kind) later pre (next a) post) :
    Triple (setting c kind) later pre (required value e >>= next) post := by
  cases value with
  | none => exact .throw order
  | some a => exact rest a rfl

theorem check_then (order : (setting c kind).Order later) {condition : Prop} [Decidable condition] {e : BrokerError}
    {next : Unit → Method B} (rest : condition → Triple (setting c kind) later pre (next ()) post) :
    Triple (setting c kind) later pre (check condition e >>= next) post := by
  unfold check
  split
  · exact rest ‹_›
  · exact .throw order

end Checks

/-- An operation that leaves everything as it is. -/
theorem triple_same {op : Op} {post : Answer op → Shared → Prop}
    (same : ∀ before answer after, effect c before op answer after → after = before)
    (holds : ∀ before answer after, Good before → effect c before op answer after → post answer before) :
    Triple (setting c kind) (Quiet c) pre (perform op) post := by
  refine .perform (order_quiet c kind) ?_
  intro s before _ relied answer after effected
  obtain rfl := same before answer after effected
  exact ⟨.same after, .refl c after, holds after answer after relied.2 effected⟩

/-- A record that was read. -/
def Shows (record : StoreRecord) (s : Shared) : Prop := Held record.generation record.payload s

theorem shows_current {s : Shared} {record : StoreRecord} (h : s.history.current = some record) : Shows record s := by
  obtain ⟨history, issued, dispatches, tasks, flights, workers⟩ := s
  cases history with
  | nil => cases h
  | cons version older =>
    obtain rfl := Option.some.inj h
    exact ⟨Nat.le_refl _, version, older, History.past_length (version :: older), rfl⟩

theorem triple_read : Triple (setting c kind) (Quiet c) pre (perform .read)
    fun answer s => ∀ record, answer = .ok (some record) → Shows record s := by
  refine triple_same ?_ ?_
  · rintro before (thrown | record) after effected
    · exact effected
    · exact effected.1
  · rintro before (thrown | found) after _ effected
    · intro record never
      cases never
    · rintro record ⟨⟩
      exact shows_current effected.2.symm

theorem triple_now : Triple (setting c kind) (Quiet c) pre (perform .now) fun _ _ => True :=
  triple_same (fun _ _ _ effected => effected) fun _ _ _ _ _ => True.intro

theorem triple_joinSharedRefresh {broker : Broker} :
    Triple (setting c kind) (Quiet c) pre (perform (.joinSharedRefresh broker)) fun _ _ => True :=
  triple_same (fun _ _ _ effected => effected.1) fun _ _ _ _ _ => True.intro

theorem triple_awaitTask {t : TaskId} : Triple (setting c kind) (Quiet c) pre (perform (.awaitTask t))
    fun answer s => ∀ grant, answer = .ok grant → Granted grant s := by
  refine triple_same (fun _ _ _ effected => effected.1) ?_
  rintro before answer after good ⟨-, task, found, outcome⟩ grant rfl
  exact good t task grant found outcome

theorem triple_sharedRefresh {broker : Broker} {expected : Expected} :
    Triple (setting c kind) (Quiet c) pre (perform (.sharedRefresh broker expected)) fun _ _ => True := by
  refine .perform (order_quiet c kind) ?_
  intro s before _ _ answer after effected
  cases found : before.flight broker with
  | some f =>
    simp only [setting, effect, found] at effected
    obtain ⟨rfl, -⟩ := effected
    exact ⟨.same after, .refl c after, True.intro⟩
  | none =>
    simp only [setting, effect, found] at effected
    obtain ⟨rfl, -⟩ := effected
    exact ⟨.share before broker expected, .share c before broker expected, True.intro⟩

theorem triple_randomUUID {code : ErrorCode} : Triple (setting c kind) (Quiet c) (fun _ => True) (randomUUID code)
    fun id s => (c, id) ∈ s.issued := by
  have asked : Triple (setting c kind) (Quiet c) (fun _ => True) (perform .randomUUID)
      fun answer s => ∀ id, answer = some id → (c, id) ∈ s.issued := by
    refine .perform (order_quiet c kind) ?_
    rintro s before - - (_ | id) after effected
    · obtain rfl : after = before := effected
      refine ⟨.same after, .refl c after, ?_⟩
      intro id never
      cases never
    · obtain ⟨fresh, rfl⟩ := effected
      refine ⟨.issue fresh, .issue c before id, ?_⟩
      rintro _ ⟨⟩
      exact List.mem_cons_self
  refine Triple.seq (order_quiet c kind) asked lasts_true ?_
  rintro (_ | id)
  · exact .throw (order_quiet c kind)
  · exact .pure (order_quiet c kind) fun s given => given.2 id rfl

/-- A call may commit a request: its commit ID was given to the call, which may write at its generation. -/
def MayCommit (c : CallId) (kind : Kind) (request : CasRequest) (payload : Payload) (s : Shared) : Prop :=
  (c, request.commitId) ∈ s.issued ∧ Permits c kind request.expectedGeneration payload s

theorem MayCommit.lasts (c : CallId) (kind : Kind) (request : CasRequest) (payload : Payload) :
    Lasts Grows (MayCommit c kind request payload) := by
  rintro s s' grows ⟨given, permits⟩
  exact ⟨grows.issued _ given, Permits.lasts _ _ _ _ s s' grows permits⟩

/-- A commit at a generation where the call may write. -/
theorem Commits.touch {request : CasRequest} {payload : Payload} {s before after : Shared}
    (h : Commits c request before after) (text : request.payload = serialize payload) (grows : Grows s before)
    (may : MayCommit c kind request payload s) : Touch c kind before after := by
  obtain ⟨generation, -, rfl⟩ := h
  obtain ⟨given, -, change⟩ := MayCommit.lasts c kind _ _ s before grows may
  rw [← generation, History.past_length] at change
  rw [text]
  exact .write given change

theorem triple_compareAndSwap {request : CasRequest} {payload : Payload} (text : request.payload = serialize payload) :
    Triple (setting c kind) (Quiet c) (MayCommit c kind request payload)
      (perform (.compareAndSwap request)) fun _ _ => True := by
  refine .perform (order_quiet c kind) ?_
  rintro s before may ⟨quiet, -⟩ answer after effected
  have committed (h : Commits c request before after) : Touch c kind before after ∧ Quiet c before after ∧ True := by
    refine ⟨h.touch text quiet.grows may, ?_, True.intro⟩
    obtain ⟨-, -, rfl⟩ := h
    exact .write c before _
  rcases answer with thrown | result
  · rcases effected with rfl | ⟨-, h⟩
    · exact ⟨.same after, .refl c after, True.intro⟩
    · exact committed h
  · rcases effected with ⟨h, -⟩ | ⟨rfl, -⟩
    · exact committed h
    · exact ⟨.same after, .refl c after, True.intro⟩

/-- A look at the worker, which may leave a grant with it. -/
theorem triple_withWorker {broker : Broker} {action : WorkerAction} (lasts : Lasts (Quiet c) pre)
    (may : ∀ s worker, pre s → (action worker).2 = worker ∨
      ∃ grant userId, (action worker).2 = .of grant userId ∧ Names grant userId s ∧
        Admits kind broker worker grant userId) :
    Triple (setting c kind) (Quiet c) pre (withWorker broker action)
      fun worker s => s.workers broker = worker ∧ ∃ before, action before = (.ok (), worker) := by
  have asked : Triple (setting c kind) (Quiet c) pre (perform (.worker broker action))
      fun answer s => ∀ worker, answer = .ok worker →
        s.workers broker = worker ∧ ∃ before, action before = (.ok (), worker) := by
    refine .perform (order_quiet c kind) ?_
    rintro s before known ⟨quiet, -⟩ answer after ⟨rfl, rfl⟩
    have left : (before.setWorker broker (action (before.workers broker)).2).workers broker =
        (action (before.workers broker)).2 := Function.update_self _ _ _
    refine ⟨?_, .setWorker c before broker _, ?_⟩
    · rcases may before (before.workers broker) (lasts s before quiet known) with same | ⟨grant, userId, is, names, admits⟩
      · rw [same, setWorker_self]
        exact .same before
      · rw [is]
        exact .worker names admits
    · intro worker answered
      rw [left] at answered ⊢
      cases found : (action (before.workers broker)).1 with
      | error e =>
        rw [found] at answered
        cases answered
      | ok done =>
        rw [found] at answered
        obtain rfl := Except.ok.inj answered
        exact ⟨rfl, before.workers broker, Prod.ext found rfl⟩
  refine asked.andThen (order_quiet c kind) (fun _ _ => id) ?_
  rintro (e | worker)
  · exact .throw (order_quiet c kind)
  · exact .pure (order_quiet c kind) fun s known => known worker rfl

end Operations

end PortableCodex.AuthBroker
