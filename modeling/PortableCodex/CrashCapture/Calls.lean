import PortableCodex.CrashCapture.Catalogue

/-!
The calls of any number of catalogues, in any processes, over one table.

A call is between two transactions or has returned. `runSerializable` says how a transaction can end; the
claims of dispatches are known to the process whose catalogue made them. A call that is refused before its
first transaction changes nothing but the claim it was given.
-/

namespace PortableCodex.CrashCapture

open Traces

variable {Value : Type}

/-! ### The store -/

def body (codec : Codec Value) (claimant : CallId) (now : Timestamp) : (op : Op Value) → Transaction op.Result
  | .claim input => claimTransaction codec claimant input now
  | .read request requireBinding => readRowTransaction codec request requireBinding
  | .transition input .mark => markUncertainTransaction codec input now
  | .transition input (.commit result) => commitResultTransaction codec input result now

def Op.isClaim : Op Value → Bool
  | .claim _ => true
  | _ => false

/-- The ends of a transaction. An error that is not reported as not committed may hide its effect. -/
def runSerializable (codec : Codec Value) (claimant : CallId) : Effect (Op Value) Answer Table :=
  fun before op answer after => ∃ now : Timestamp,
    match answer with
    | .ok value => body codec claimant now op before = .ok (value, after)
    | .error (.catalogue code) => after = before ∧ body codec claimant now op before = .error (.catalogue code)
    | .error .visibilityRetry => after = before ∧ op.isClaim = true
    | .error (.store commitState) =>
        after = before ∨
          commitState ≠ some .notCommitted ∧ ∃ value, body codec claimant now op before = .ok (value, after)

/-! ### Calls -/

inductive Kind (Value : Type) where
  | claimStarting (input : Input Value)
  | transition (dispatchClaim : DispatchClaim) (input : Input Value) (change : Transition Value)
  | readCommitted (request : Request Value)

namespace Kind

def request : Kind Value → Request Value
  | .claimStarting input => input.request
  | .transition _ input _ => input.request
  | .readCommitted request => request

def requireBinding : Kind Value → Option (Binding Value)
  | .claimStarting input => some input.binding
  | .transition _ input _ => some input.binding
  | .readCommitted _ => none

def program : Kind Value → Method Value (Result Value)
  | .claimStarting input => claimWithRecovery input
  | .transition _ input change => transitionWithRecovery input change
  | .readCommitted request => CrashCapture.readCommitted request

end Kind

inductive Progress (Value : Type) where
  | running (program : Method Value (Result Value))
  | returned (result : Result Value)

structure Call (Value : Type) where
  owner : Owner
  kind : Kind Value
  progress : Progress Value
  /-- What a dispatch that it returned is used with. -/
  dispatchClaim : Option DispatchClaim

structure World (Value : Type) where
  table : Table
  calls : CallId → Option (Call Value)
  nextCall : CallId
  dispatchClaims : DispatchClaim → Option (Owner × Input Value)
  nextClaim : DispatchClaim

namespace World

variable (world : World Value)

def initial : World Value where
  table := []
  calls := fun _ => none
  nextCall := 0
  dispatchClaims := fun _ => none
  nextClaim := 0

def setCall (c : CallId) (call : Call Value) : World Value :=
  { world with calls := Function.update world.calls c (some call) }

def begin (owner : Owner) (kind : Kind Value) : World Value :=
  { world.setCall world.nextCall { owner, kind, progress := .running kind.program, dispatchClaim := none } with
    nextCall := world.nextCall + 1 }

/-- `dispatchClaims.delete` -/
def delete (dispatchClaim : DispatchClaim) : World Value :=
  { world with dispatchClaims := Function.update world.dispatchClaims dispatchClaim none }

def consumeDispatchClaim (dispatchClaim : DispatchClaim) (owner : Owner) : Option (Input Value × World Value) :=
  match world.dispatchClaims dispatchClaim with
  | some (claimOwner, input) => if claimOwner = owner then some (input, world.delete dispatchClaim) else none
  | none => none

/-- `newDispatchProjection` -/
def dispatch (c : CallId) (call : Call Value) (input : Input Value) : World Value :=
  { world.setCall c { call with progress := .returned (.ok .dispatch), dispatchClaim := some world.nextClaim } with
    dispatchClaims := Function.update world.dispatchClaims world.nextClaim (some (call.owner, input))
    nextClaim := world.nextClaim + 1 }

/-- A call goes on to its next transaction, or returns. -/
def goOn (c : CallId) (call : Call Value) : Method Value (Result Value) → World Value
  | .ask op next => world.setCall c { call with progress := .running (.ask op next) }
  | .done result =>
      match result, call.kind with
      | .ok .dispatch, .claimStarting input => world.dispatch c call input
      | _, _ => world.setCall c { call with progress := .returned result }

end World

inductive Event (Value : Type) where
  | claimStarting (owner : Owner) (request providerBinding : Value)
  | markUncertain (owner : Owner) (dispatchClaim : DispatchClaim)
  | commitResult (owner : Owner) (dispatchClaim : DispatchClaim) (result : Value)
  | readCommitted (owner : Owner) (request : Value)
  | transaction (c : CallId)

inductive Step (codec : Codec Value) : World Value → Event Value → World Value → Prop where
  | claimStarting {world owner request providerBinding input} :
      codec.normalizedClaimInput request providerBinding = some input →
      Step codec world (.claimStarting owner request providerBinding) (world.begin owner (.claimStarting input))
  | markUncertain {world owner dispatchClaim input after} :
      world.consumeDispatchClaim dispatchClaim owner = some (input, after) →
      Step codec world (.markUncertain owner dispatchClaim) (after.begin owner (.transition dispatchClaim input .mark))
  | commitResult {world owner dispatchClaim value input after result} :
      world.consumeDispatchClaim dispatchClaim owner = some (input, after) →
      codec.normalizedStoredResult value input.request = some result →
      Step codec world (.commitResult owner dispatchClaim value)
        (after.begin owner (.transition dispatchClaim input (.commit result)))
  | invalidResult {world owner dispatchClaim value input after} :
      world.consumeDispatchClaim dispatchClaim owner = some (input, after) →
      codec.normalizedStoredResult value input.request = none →
      Step codec world (.commitResult owner dispatchClaim value) after
  | readCommitted {world owner value request} :
      codec.normalizedRequest value = some request →
      Step codec world (.readCommitted owner value) (world.begin owner (.readCommitted request))
  | transaction {world c call op next answer after} :
      world.calls c = some call → call.progress = .running (.ask op next) →
      runSerializable codec c world.table op answer after →
      Step codec world (.transaction c) ({ world with table := after }.goOn c call (next answer))

/-- The runs of all catalogues over one table. -/
def catalogues (codec : Codec Value) : System (World Value) (Event Value) where
  start world := world = .initial
  step world events next := ∃ event, Step codec world event next ∧ events = [event]

end PortableCodex.CrashCapture
