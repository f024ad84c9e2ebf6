import PortableCodex.RecoveryCursor.Cursor
import PortableCodex.Traces.Run
import Mathlib.Logic.Function.Basic

/-!
The calls of any number of processes on the cursor of one scope and one lane.

The store keeps the rows that the cursor has had, each with the call whose transaction wrote it. A call is
between two transactions or has returned. `runSerializable` says how a transaction can end.
-/

namespace PortableCodex.RecoveryCursor

open Js ProviderState Contracts Traces

abbrev CallId := Nat

/-- A row that was written. -/
structure Version where
  row : CursorRow
  writer : CallId
deriving DecidableEq

/-- The rows of the scope and the lane, the newest first; only the first one is in the table. -/
abbrev History := List Version

namespace History

def current (history : History) : Option CursorRow := history.head?.map (·.row)

def written (history : History) (writer : CallId) (rows : List CursorRow) : History :=
  rows.map (Version.mk · writer) ++ history

end History

/-! ### The store -/

def body (now : IsoTimestamp) : (op : Op) → Transaction op.Result
  | .advance input => advanceTransaction input now
  | .readExisting key => readExisting key
  | .initializeAndRead key => initializeAndRead key now

/-- A transaction that commits. -/
def Commits (c : CallId) (op : Op) (before : History) (value : op.Result) (after : History) : Prop :=
  ∃ now rows, body now op before.current = .ok (value, rows) ∧ after = before.written c rows

/-- The ends of a transaction. An error that is not reported as not committed may hide its effect. -/
def runSerializable (c : CallId) : Effect Op Answer History := fun before op answer after =>
  match answer with
  | .ok value => Commits c op before value after
  | .error (.cursor code) => after = before ∧ ∃ now, body now op before.current = .error code
  | .error (.store commitState) =>
      after = before ∨ commitState ≠ some .notCommitted ∧ ∃ value, Commits c op before value after

/-! ### Calls -/

inductive Kind where
  | readLane (key : Key)
  | advanceLane (input : AdvanceRequest)

def Kind.program : Kind → Method Result
  | .readLane key => RecoveryCursor.readLane key
  | .advanceLane input => RecoveryCursor.advanceLane input

inductive Progress where
  | running (program : Method Result)
  | returned (result : Result)

structure Call where
  kind : Kind
  progress : Progress

structure World where
  history : History
  calls : CallId → Option Call
  nextCall : CallId

namespace World

def initial : World where
  history := []
  calls := fun _ => none
  nextCall := 0

variable (world : World)

def setCall (c : CallId) (call : Call) : World :=
  { world with calls := Function.update world.calls c (some call) }

def begin (kind : Kind) : World :=
  { world.setCall world.nextCall { kind, progress := .running kind.program } with nextCall := world.nextCall + 1 }

/-- A call goes on to its next transaction, or returns. -/
def goOn (c : CallId) (kind : Kind) : Method Result → World
  | .ask op next => world.setCall c { kind, progress := .running (.ask op next) }
  | .done result => world.setCall c { kind, progress := .returned result }

end World

inductive Event where
  | readLane (request : JsValue)
  | advanceLane (request : JsValue)
  | transaction (c : CallId)

/-- The steps of the calls on one key. -/
inductive Step (parseDate : JsString → Option IsoTimestamp) (key : Key) : World → Event → World → Prop where
  | readLane {world request} : normalizeReadRequest request = some key →
      Step parseDate key world (.readLane request) (world.begin (.readLane key))
  | advanceLane {world request input} : normalizeAdvanceRequest parseDate request = some input → input.key = key →
      Step parseDate key world (.advanceLane request) (world.begin (.advanceLane input))
  | transaction {world c kind op next answer after} :
      world.calls c = some { kind, progress := .running (.ask op next) } →
      runSerializable c world.history op answer after →
      Step parseDate key world (.transaction c) ({ world with history := after }.goOn c kind (next answer))

/-- The runs of the calls on one key. -/
def cursors (parseDate : JsString → Option IsoTimestamp) (key : Key) : System World Event where
  start world := world = .initial
  step world events next := ∃ event, Step parseDate key world event next ∧ events = [event]

end PortableCodex.RecoveryCursor
