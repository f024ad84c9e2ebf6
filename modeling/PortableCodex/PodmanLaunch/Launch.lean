import Mathlib.Logic.Function.Basic
import PortableCodex.Js.Text
import PortableCodex.Traces.Run

/-!
Launching a writer for one attempt, and reconciling the launch.

Any number of `launchWriter` and `reconcileWriterLaunch` calls of any processes run over one record and one
container name. Each call is at some place of its body; an `Action` is its next operation, and the operations
of all calls interleave freely. The record store is linearizable. A command that was dispatched takes effect
at any later time or never, and its caller can see an error in either case. A call can fail wherever it is,
be it an error or a crash. No call here stops a writer, so the record never gets past `started`.
-/

namespace PortableCodex.PodmanLaunch

open Traces

/-! ### Worlds -/

/-- The status of the record of the attempt. -/
inductive Status where
  | preparing
  | created
  | started
deriving DecidableEq

/-- The state of the container of the attempt, as `podman container inspect` shows it. -/
inductive Container where
  | created
  | running
  | exited
deriving DecidableEq

inductive Verb where
  | create
  | start
deriving DecidableEq

structure Command where
  caller : Nat
  verb : Verb
deriving DecidableEq

/-- The place of a `launchWriter` call. -/
inductive Launch where
  | reading
  /-- The record was absent: the proofs of the engine, the image and the attachment, up to the claim. -/
  | unclaimed
  | claimed
  | creating
  /-- The container ID is known. -/
  | created
  | configured
  | starting
  | running
  | ended
deriving DecidableEq

/-- The place of a `reconcileWriterLaunch` call. -/
inductive Reconcile where
  | reading
  | listing
  /-- No container was listed. -/
  | notStarted
  | inspecting
  | ended
deriving DecidableEq

inductive Evidence where
  | started
  | notStarted
  | completeStopped
deriving DecidableEq

inductive Event where
  | claimed
  | created
  | started
  | listedNone
  | returned (evidence : Evidence)
deriving DecidableEq

structure World where
  record : Option Status
  container : Option Container
  /-- Dispatched, and yet to take effect. -/
  commands : List Command
  done : List Command
  launches : Nat → Launch
  reconciles : Nat → Reconcile

/-- Nothing has happened; every call is yet to begin. -/
def World.first : World where
  record := none
  container := none
  commands := []
  done := []
  launches _ := .reading
  reconciles _ := .reading

def World.launch (world : World) (call : Nat) (place : Launch) : World :=
  { world with launches := Function.update world.launches call place }

def World.reconcile (world : World) (call : Nat) (place : Reconcile) : World :=
  { world with reconciles := Function.update world.reconciles call place }

/-! ### Steps -/

inductive Action where
  | launch (call : Nat)
  | failLaunch (call : Nat)
  | reconcile (call : Nat)
  | failReconcile (call : Nat)
  /-- The first command takes effect, or never does. -/
  | effect
  | drop
  /-- The commands are not executed in any order. -/
  | rotate
  /-- The writer exits by itself. -/
  | exit

abbrev Next := World × List Event

/-- The next operation of a `launchWriter` call. -/
def launchWriter (world : World) (call : Nat) : Option Next :=
  match world.launches call with
  | .reading =>
      match world.record with
      | none => some (world.launch call .unclaimed, [])
      | some .started => some (world.launch call .ended, [.returned .started])
      | some _ => some (world.launch call .ended, [])
  | .unclaimed =>
      match world.record with
      | none => some ({ world.launch call .claimed with record := some .preparing }, [.claimed])
      | some .started => some (world.launch call .ended, [.returned .started])
      | some _ => some (world.launch call .ended, [])
  | .claimed => some ({ world.launch call .creating with commands := world.commands ++ [⟨call, .create⟩] }, [])
  | .creating => if ⟨call, .create⟩ ∈ world.done then some (world.launch call .created, []) else none
  | .created =>
      if world.record = some .preparing then
        some ({ world.launch call .configured with record := some .created }, [])
      else some (world.launch call .ended, [])
  | .configured =>
      if world.container = some .created then
        some ({ world.launch call .starting with commands := world.commands ++ [⟨call, .start⟩] }, [])
      else some (world.launch call .ended, [])
  | .starting =>
      if ⟨call, .start⟩ ∈ world.done then
        if world.container = some .running then some (world.launch call .running, [])
        else some (world.launch call .ended, [])
      else none
  | .running =>
      if world.record = some .created then
        some ({ world.launch call .ended with record := some .started }, [.returned .started])
      else some (world.launch call .ended, [])
  | .ended => none

/-- The next operation of a `reconcileWriterLaunch` call. -/
def reconcileWriterLaunch (world : World) (call : Nat) : Option Next :=
  match world.reconciles call with
  | .reading =>
      match world.record with
      | none | some .preparing => some (world.reconcile call .listing, [])
      | some _ => some (world.reconcile call .inspecting, [])
  | .listing =>
      match world.container with
      | none => some (world.reconcile call .notStarted, [.listedNone])
      | some _ => some (world.reconcile call .inspecting, [])
  | .notStarted => some (world.reconcile call .ended, [.returned .notStarted])
  | .inspecting =>
      if world.container = some .exited then some (world.reconcile call .ended, [.returned .completeStopped])
      else some (world.reconcile call .ended, [])
  | .ended => none

/-- What a command does: the name of a container is unique. -/
def execute (world : World) (command : Command) : Next :=
  match command.verb, world.container with
  | .create, none => ({ world with container := some .created, done := command :: world.done }, [.created])
  | .create, some _ => (world, [])
  | .start, some .created => ({ world with container := some .running, done := command :: world.done }, [.started])
  | .start, some .exited => ({ world with container := some .running, done := command :: world.done }, [.started])
  | .start, some .running => ({ world with done := command :: world.done }, [])
  | .start, none => (world, [])

def perform (world : World) : Action → Option Next
  | .launch call => launchWriter world call
  | .failLaunch call => some (world.launch call .ended, [])
  | .reconcile call => reconcileWriterLaunch world call
  | .failReconcile call => some (world.reconcile call .ended, [])
  | .effect =>
      match world.commands with
      | [] => none
      | command :: commands => some (execute { world with commands } command)
  | .drop => some ({ world with commands := world.commands.tail }, [])
  | .rotate =>
      match world.commands with
      | [] => none
      | command :: commands => some ({ world with commands := commands ++ [command] }, [])
  | .exit => if world.container = some .running then some ({ world with container := some .exited }, []) else none

def podman : System World Event where
  start world := world = .first
  step world events next := ∃ action, perform world action = some (next, events)

/-! ### Evidence -/

/-- What not-started evidence says will not happen. -/
def Event.Contradicts : Event → Prop
  | .created | .started | .returned .started | .returned .completeStopped => True
  | _ => False

/-- Not-started evidence is final in a trace. -/
def Final (trace : List Event) : Prop :=
  ∀ before after, trace = before ++ .returned .notStarted :: after → ∀ event ∈ after, ¬ event.Contradicts

/-- A launch that has claimed the attempt and has not ended. -/
def Launch.Holds : Launch → Prop
  | .claimed | .creating | .created | .configured | .starting | .running => True
  | _ => False

/-- No launch that has claimed the attempt goes on, and none of its commands. -/
def World.Idle (world : World) : Prop := (∀ call, ¬ (world.launches call).Holds) ∧ world.commands = []

end PortableCodex.PodmanLaunch
