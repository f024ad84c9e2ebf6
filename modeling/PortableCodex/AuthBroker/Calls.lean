import PortableCodex.AuthBroker.Broker
import PortableCodex.Traces.Run
import Mathlib.Logic.Function.Basic

/-!
The calls of any number of brokers, in any processes, over one store.

The store keeps the versions of its record, each with the call that wrote it; a rotation of the encryption
key writes the same payload again. A commit takes effect at the current generation only, an error that does
not say so has left the store as it is, and no identifier is given out twice. A refresh that is shared inside
a process is a task: it starts some time after it was asked for, and may be joined until it has landed. What a
broker remembers of its worker is shared by the calls on this broker.
-/

namespace PortableCodex.AuthBroker

open Js ProviderState Traces

abbrev CallId := Nat

/-- A version of the record; `writer` is none for a rotation. -/
structure Version where
  raw : JsString
  commitId : JsString
  writer : Option CallId

/-- The versions of the record, the newest first. The generation of a version is its number. -/
abbrev History := List Version

namespace History

/-- The history when it had so many versions. -/
def past (n : Nat) (history : History) : History := history.drop (history.length - n)

def current : History → Option StoreRecord
  | [] => none
  | version :: older =>
      some { generation := older.length + 1, commitId := version.commitId, payload := version.raw }

end History

structure Dispatch where
  caller : CallId
  request : AdapterRequest

/-- A refresh that is shared. -/
structure Task where
  broker : Broker
  expected : Expected
  started : Bool
  outcome : Option (Except BrokerError Grant)

/-- An entry of `SINGLEFLIGHT`. -/
structure Flight where
  process : Nat
  coordinationKey : Nat
  task : TaskId

structure Shared where
  history : History
  /-- The identifiers that were given out. -/
  issued : List (CallId × JsString)
  dispatches : List Dispatch
  tasks : List Task
  flights : List Flight
  workers : Broker → Worker

namespace Shared

def initial : Shared where
  history := []
  issued := []
  dispatches := []
  tasks := []
  flights := []
  workers := fun _ => .absent

variable (shared : Shared)

def write (version : Version) : Shared := { shared with history := version :: shared.history }

def issue (c : CallId) (id : JsString) : Shared := { shared with issued := (c, id) :: shared.issued }

def dispatch (c : CallId) (request : AdapterRequest) : Shared :=
  { shared with dispatches := ⟨c, request⟩ :: shared.dispatches }

def flight (broker : Broker) : Option Flight :=
  shared.flights.find? fun f => f.process = broker.process ∧ f.coordinationKey = broker.coordinationKey

/-- `sharedRefresh` where there is no entry. -/
def share (broker : Broker) (expected : Expected) : Shared where
  history := shared.history
  issued := shared.issued
  dispatches := shared.dispatches
  tasks := shared.tasks ++ [{ broker, expected, started := false, outcome := none }]
  flights := ⟨broker.process, broker.coordinationKey, shared.tasks.length⟩ :: shared.flights
  workers := shared.workers

def setWorker (broker : Broker) (worker : Worker) : Shared :=
  { shared with workers := Function.update shared.workers broker worker }

def setTask (t : TaskId) (task : Task) : Shared := { shared with tasks := shared.tasks.set t task }

/-- The entry of a task is deleted. -/
def land (t : TaskId) : Shared := { shared with flights := shared.flights.filter fun f => f.task ≠ t }

end Shared

/-! ### Operations -/

def sharedConfigurationMatches (broker other : Broker) : Bool :=
  !broker.minTokenTtlSeconds.less other.minTokenTtlSeconds && !other.minTokenTtlSeconds.less broker.minTokenTtlSeconds &&
    broker.refreshAdapterOwner = other.refreshAdapterOwner && broker.refreshAdapterIdentity = other.refreshAdapterIdentity

/-- The task of an entry, for a broker of its configuration. -/
def Shared.joins (shared : Shared) (broker : Broker) (f : Flight) : Option TaskId :=
  if (shared.tasks[f.task]?).any fun task => sharedConfigurationMatches task.broker broker then some f.task else none

/-- A commit that takes effect. -/
def Commits (c : CallId) (request : CasRequest) (before after : Shared) : Prop :=
  before.history.length = request.expectedGeneration ∧ before.history.length < maxGeneration ∧
    after = before.write { raw := request.payload, commitId := request.commitId, writer := some c }

/-- The request has written the current version. -/
def Replays (request : CasRequest) (history : History) : Prop :=
  ∃ version older, history = version :: older ∧ version.commitId = request.commitId ∧
    version.raw = request.payload ∧ older.length = request.expectedGeneration

def casResult (request : CasRequest) (replayed : Bool) : CasResult where
  generation := request.expectedGeneration + 1
  commitId := request.commitId
  payload := request.payload
  replayed := replayed

def effect (c : CallId) : Effect Op Answer Shared := fun before op answer after =>
  match op, answer with
  | .read, .ok record => after = before ∧ record = before.history.current
  | .read, .error _ => after = before
  | .compareAndSwap request, .ok result =>
      Commits c request before after ∧ result = casResult request false ∨
        after = before ∧ Replays request before.history ∧ result = casResult request true
  | .compareAndSwap request, .error thrown =>
      after = before ∨ storeCommitMayHaveSucceeded thrown = true ∧ Commits c request before after
  | .randomUUID, none => after = before
  | .randomUUID, some id => (∀ given ∈ before.issued, given.2 ≠ id) ∧ after = before.issue c id
  | .now, _ => after = before
  | .refresh request, _ => after = before.dispatch c request
  | .sharedRefresh broker expected, answer =>
      match before.flight broker with
      | some f => after = before ∧ answer = before.joins broker f
      | none => after = before.share broker expected ∧ answer = some before.tasks.length
  | .joinSharedRefresh broker, answer =>
      after = before ∧
        answer = match before.flight broker with
          | some f => (before.joins broker f).map some
          | none => some none
  | .awaitTask t, answer => after = before ∧ ∃ task, before.tasks[t]? = some task ∧ task.outcome = some answer
  | .worker broker action, answer =>
      after = before.setWorker broker (action (before.workers broker)).2 ∧
        answer = (action (before.workers broker)).1.map fun _ => after.workers broker

/-! ### Calls -/

inductive Kind where
  | installCredential (credential : JsValue)
  | recoverRefreshReservation (request : JsValue)
  | snapshot
  | getGrant (broker : Broker) (options : Option JsValue)
  | refreshGrant (broker : Broker) (options : Option JsValue)
  | workerLoginParams (broker : Broker) (options : Option JsValue)
  | handleWorkerRefresh (broker : Broker) (params : JsValue)
  | refreshOnce (task : TaskId) (broker : Broker) (expected : Expected)

inductive Returned where
  | snapshot (snapshot : Snapshot)
  | grant (grant : Grant)
  | delivery (delivery : Delivery)

def Kind.program : Kind → Method Returned
  | .installCredential credential => return .snapshot (← AuthBroker.installCredential credential)
  | .recoverRefreshReservation request => return .snapshot (← AuthBroker.recoverRefreshReservation request)
  | .snapshot => return .snapshot (← AuthBroker.snapshot)
  | .getGrant broker options => return .grant (← AuthBroker.getGrant broker options)
  | .refreshGrant broker options => return .grant (← AuthBroker.refreshGrant broker options)
  | .workerLoginParams broker options => return .delivery (← AuthBroker.workerLoginParams broker options)
  | .handleWorkerRefresh broker params => return .delivery (← AuthBroker.handleWorkerRefresh broker params)
  | .refreshOnce _ broker expected => return .grant (← AuthBroker.refreshOnce broker expected)

/-- A call from outside. -/
def Kind.isMethod : Kind → Bool
  | .refreshOnce _ _ _ => false
  | _ => true

abbrev Result := Except BrokerError Returned

inductive Progress where
  | running (program : Program Op Answer Result)
  | returned (result : Result)

structure Call where
  kind : Kind
  progress : Progress

structure World where
  shared : Shared
  calls : CallId → Option Call
  nextCall : CallId

/-- What those who await a task get. -/
def outcomeOf : Result → Option (Except BrokerError Grant)
  | .ok (.grant grant) => some (.ok grant)
  | .ok _ => none
  | .error e => some (.error e)

/-- A task ends with the call that runs it. -/
def Shared.settle (shared : Shared) (result : Result) : Kind → Shared
  | .refreshOnce t _ _ =>
      match shared.tasks[t]? with
      | some task => shared.setTask t { task with outcome := outcomeOf result }
      | none => shared
  | _ => shared

namespace World

def initial : World := { shared := .initial, calls := fun _ => none, nextCall := 0 }

variable (world : World)

def setCall (c : CallId) (call : Call) : World :=
  { world with calls := Function.update world.calls c (some call) }

/-- A call goes on to its next operation, or returns. -/
def goOn (c : CallId) (kind : Kind) (shared : Shared) : Program Op Answer Result → World
  | .ask op next => { world.setCall c { kind, progress := .running (.ask op next) } with shared }
  | .done result =>
      { world.setCall c { kind, progress := .returned result } with shared := shared.settle result kind }

def begin (kind : Kind) : World :=
  { world.goOn world.nextCall kind world.shared kind.program.run with nextCall := world.nextCall + 1 }

end World

inductive Event where
  | call (kind : Kind)
  | start (t : TaskId)
  | operation (c : CallId)
  | rotate (commitId : JsString)
  | land (t : TaskId)

inductive Step : World → Event → World → Prop where
  | call {world kind} : kind.isMethod = true → Step world (.call kind) (world.begin kind)
  | start {world : World} {t task} : world.shared.tasks[t]? = some task → task.started = false →
      Step world (.start t) ({ world with shared := world.shared.setTask t { task with started := true } }.begin
        (.refreshOnce t task.broker task.expected))
  | operation {world : World} {c kind op next answer after} :
      world.calls c = some { kind, progress := .running (.ask op next) } →
      effect c world.shared op answer after →
      Step world (.operation c) (world.goOn c kind after (next answer))
  | rotate {world : World} {commitId version older} : world.shared.history = version :: older →
      world.shared.history.length < maxGeneration →
      Step world (.rotate commitId)
        { world with shared := world.shared.write { raw := version.raw, commitId, writer := none } }
  | land {world : World} {t task} : world.shared.tasks[t]? = some task → task.outcome.isSome = true →
      Step world (.land t) { world with shared := world.shared.land t }

/-- The runs of the brokers over one store. -/
def brokers : System World Event where
  start world := world = .initial
  step world events next := ∃ event, Step world event next ∧ events = [event]

end PortableCodex.AuthBroker
