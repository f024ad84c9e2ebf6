import PortableCodex.AuthBroker.Payload
import PortableCodex.Traces.Triple

/-!
The methods of the broker, as programs.

A program asks the store, the clock, the source of identifiers, the refresh adapter and the refreshes that
are shared inside a process. Every refresh of a credential reserves it in the store first
(`reserveRefresh`), then calls the adapter once, and then replaces its own reservation
(`commitAfterDispatch`), whatever came of the call.
-/

namespace PortableCodex.AuthBroker

open Js ProviderState Traces

/-! ### Errors -/

/-- `ERROR_DEFINITIONS` -/
inductive ErrorCode where
  | casConflict
  | invalidCredential
  | invalidRequest
  | invalidStoreSnapshot
  | reauthRequired
  | recoveryRequired
  | refreshFailed
  | refreshOutcomeUncertain
  | storeUnavailable
  | tokenTtlInsufficient
  | uninitialized
deriving DecidableEq

/-- `AuthBrokerError` -/
structure BrokerError where
  code : ErrorCode
  generation : Option Nat
  reason : Option Reason
  status : Option BlockedStatus
deriving DecidableEq

/-- `new AuthBrokerError(code)` -/
def brokerError (code : ErrorCode) : BrokerError := { code, generation := none, reason := none, status := none }

def errorAt (code : ErrorCode) (generation : Nat) : BrokerError := { brokerError code with generation := some generation }

def errorFor (code : ErrorCode) (reason : Reason) : BrokerError := { brokerError code with reason := some reason }

/-- The data properties of what a store throws. -/
structure Thrown where
  code : Option JsString
  commitState : Option JsString

/-- `INVALID_STORE_CODES` -/
def invalidStoreCodes : List JsString :=
  [js "auth_state_integrity_failed", js "authority_binding_mismatch", js "commit_id_conflict",
    js "commit_verification_failed", js "generation_exhausted", js "invalid_auth_state", js "invalid_authority_id",
    js "invalid_commit_id", js "invalid_generation", js "invalid_key_id", js "invalid_key_material",
    js "invalid_key_provider", js "invalid_lock_provider", js "invalid_payload", js "invalid_random_source",
    js "invalid_store_directory", js "unsupported_auth_state"]

def Thrown.recovers (thrown : Thrown) : Bool :=
  thrown.code = some (js "lock_release_failed") ∨ thrown.code = some (js "recovery_required")

def Thrown.invalid (thrown : Thrown) : Bool := thrown.code.any fun code => code ∈ invalidStoreCodes

def storeReadError (thrown : Thrown) : BrokerError :=
  if thrown.recovers then brokerError .recoveryRequired
  else if thrown.invalid then brokerError .invalidStoreSnapshot
  else brokerError .storeUnavailable

def storeCommitMayHaveSucceeded (thrown : Thrown) : Bool :=
  thrown.code = some (js "commit_outcome_uncertain") ∨ thrown.commitState = some (js "committed") ∨
    thrown.commitState = some (js "uncertain")

/-! ### Operations -/

structure StoreRecord where
  generation : Nat
  commitId : JsString
  payload : JsString

structure CasRequest where
  commitId : JsString
  expectedGeneration : Nat
  payload : JsString

structure CasResult where
  generation : Nat
  commitId : JsString
  payload : JsString
  replayed : Bool

/-- What the adapter is called with. -/
structure AdapterRequest where
  credential : Credential
  expectedGeneration : Nat
  attemptId : OpaqueId

/-- The data properties of what an adapter throws. -/
structure AdapterError where
  code : Option JsValue
  postDispatch : Option JsValue
  preDispatch : Option JsValue
  reason : Option JsValue

structure Grant where
  accessToken : JsString
  accountId : JsString
  expiresAt : JsString
  generation : Nat
  planType : Option JsString
deriving DecidableEq

/-- The broker that a call is made on. Its store is the one that all share; the brokers of a process are told
apart by their numbers. -/
structure Broker where
  process : Nat
  number : Nat
  coordinationKey : Nat
  minTokenTtlSeconds : JsNumber
  refreshAdapterIdentity : Nat
  refreshAdapterOwner : Nat
deriving DecidableEq

/-- The credential that a refresh was asked for. -/
structure Expected where
  accessToken : JsString
  accountId : JsString
  generation : Nat

/-- What a broker remembers of its worker. -/
structure Worker where
  accessToken : Option JsString
  accountId : Option JsString
  generation : Option Nat
  userId : Option JsString
deriving DecidableEq

/-- A part of a method that looks at the worker and sets it, without an `await` in it. -/
abbrev WorkerAction := Worker → Except BrokerError Unit × Worker

abbrev TaskId := Nat

inductive Op where
  | read
  | compareAndSwap (request : CasRequest)
  | randomUUID
  | now
  | refresh (request : AdapterRequest)
  | sharedRefresh (broker : Broker) (expected : Expected)
  | joinSharedRefresh (broker : Broker)
  | awaitTask (task : TaskId)
  | worker (broker : Broker) (action : WorkerAction)

abbrev Answer : Op → Type
  | .read => Except Thrown (Option StoreRecord)
  | .compareAndSwap _ => Except Thrown CasResult
  | .randomUUID => Option JsString
  | .now => Option JsNumber
  | .refresh _ => Except AdapterError (Option JsValue)
  | .sharedRefresh _ _ => Option TaskId
  | .joinSharedRefresh _ => Option (Option TaskId)
  | .awaitTask _ => Except BrokerError Grant
  | .worker _ _ => Except BrokerError Worker

abbrev Method := Fallible Op Answer BrokerError

def perform (op : Op) : Method (Answer op) := ExceptT.lift (Program.perform op)

def throwCode {A : Type} (code : ErrorCode) : Method A := throw (brokerError code)

/-- A value that has to be there. -/
def required {A : Type} (value : Option A) (error : BrokerError) : Method A :=
  match value with
  | some a => pure a
  | none => throw error

def check (condition : Prop) [Decidable condition] (error : BrokerError) : Method Unit :=
  if condition then pure () else throw error

/-! ### The store -/

def maxGeneration : Nat := 18446744073709551615

/-- `MAX_STORAGE_ONLY_REBASES` -/
def maxStorageOnlyRebases : Nat := 8

/-- `MAX_SHARED_REFRESH_RECHECKS` -/
def maxSharedRefreshRechecks : Nat := 8

/-- What `#readCanonical` finds. -/
structure Canonical where
  generation : Nat
  commitId : JsString
  payload : Payload
  rawPayload : JsString

def generationOf : Option Canonical → Nat
  | none => 0
  | some canonical => canonical.generation

def readCanonical : Method (Option Canonical) := do
  match ← perform .read with
  | .error thrown => throw (storeReadError thrown)
  | .ok none => return none
  | .ok (some record) => do
      check (record.commitId ≠ [] ∧ record.generation ≤ maxGeneration ∧ record.generation ≠ 0)
        (brokerError .invalidStoreSnapshot)
      let payload ← required (parseStoredPayload record.payload) (brokerError .invalidStoreSnapshot)
      return some { generation := record.generation, commitId := record.commitId, payload, rawPayload := record.payload }

/-- The attempts at a commit: the result, or that it may have been made. -/
def attempts (request : CasRequest) (postDispatch : Bool) : Nat → Bool → Method (Option CasResult × Bool)
  | 0, mayHaveCommitted => pure (none, mayHaveCommitted)
  | left + 1, before => do
      match ← perform (.compareAndSwap request) with
      | .ok result => return (some result, before)
      | .error thrown =>
          let mayHaveCommitted := before || storeCommitMayHaveSucceeded thrown
          if thrown.code = some (js "generation_conflict") then
            if mayHaveCommitted then return (none, mayHaveCommitted)
            else throw (errorAt .casConflict request.expectedGeneration)
          else if thrown.recovers then throwCode .recoveryRequired
          else if thrown.invalid then throwCode .invalidStoreSnapshot
          else if left = 0 then
            if mayHaveCommitted then return (none, mayHaveCommitted)
            else throwCode (if postDispatch then .refreshOutcomeUncertain else .storeUnavailable)
          else attempts request postDispatch left mayHaveCommitted

def validateCasResult (result : CasResult) (request : CasRequest) : Bool :=
  result.generation ≤ maxGeneration ∧ result.generation = request.expectedGeneration + 1 ∧
    result.commitId = request.commitId ∧ result.payload = request.payload

/-- What the readback of a commit shows. -/
def readbackOf (request : CasRequest) (result : Option CasResult) (mayHaveCommitted : Bool) (latest : Option Canonical) :
    Method Canonical :=
  match latest with
  | none => throw (if mayHaveCommitted then brokerError .refreshOutcomeUncertain else errorAt .casConflict 0)
  | some canonical =>
      let committed := (result.map (·.generation)).getD (request.expectedGeneration + 1)
      if result.isSome ∧ committed < canonical.generation ∧ canonical.rawPayload = request.payload then pure canonical
      else if canonical.generation = committed ∧ canonical.commitId = request.commitId ∧
          canonical.rawPayload = request.payload then pure canonical
      else throw (if mayHaveCommitted then brokerError .refreshOutcomeUncertain
        else errorAt .casConflict canonical.generation)

/-- `#compareAndRead` with its commit ID. -/
def compareAndReadWith (expectedGeneration : Nat) (payload : Payload) (commitId : JsString) (postDispatch : Bool) :
    Method Canonical := do
  let request : CasRequest := { commitId, expectedGeneration, payload := serialize payload }
  let (result, mayHaveCommitted) ← attempts request postDispatch 2 false
  check (∀ r ∈ result, validateCasResult r request = true) (brokerError .invalidStoreSnapshot)
  match ← attempt readCanonical with
  | .error e =>
      throw (if result.isSome ∨ mayHaveCommitted = true then brokerError .refreshOutcomeUncertain else e)
  | .ok latest => readbackOf request result mayHaveCommitted latest

/-- `#randomUUID()`, which can throw. -/
def randomUUID (code : ErrorCode) : Method JsString := do
  required (← perform .randomUUID) (brokerError code)

def compareAndRead (expectedGeneration : Nat) (payload : Payload) (postDispatch : Bool) : Method Canonical := do
  let commitId ← randomUUID (if postDispatch then .refreshOutcomeUncertain else .storeUnavailable)
  compareAndReadWith expectedGeneration payload commitId postDispatch

def BlockedStatus.errorCode : BlockedStatus → ErrorCode
  | .reauthRequired => .reauthRequired
  | .recoveryRequired => .recoveryRequired

/-- `#blockedError` -/
def blockedError (generation : Nat) (status : BlockedStatus) (reason : Reason) : BrokerError :=
  { code := status.errorCode, generation := some generation, reason := some reason, status := some status }

def sensitiveGrant (generation : Nat) (c : Credential) : Grant :=
  { accessToken := c.val.accessToken, accountId := c.val.accountId, expiresAt := c.val.expiresAt, generation,
    planType := c.val.planType }

/-- The credential of what was read, as `#grantFromCanonical` tells it from the rest. -/
def readyOf (latest : Option Canonical) : Method (Canonical × Credential) :=
  match latest with
  | none => throw (errorAt .uninitialized 0)
  | some canonical =>
      match canonical.payload with
      | .ready c => pure (canonical, c)
      | .blocked status reason _ => throw (blockedError canonical.generation status reason)

def grantFromCanonical (latest : Option Canonical) : Method Grant := do
  let (canonical, c) ← readyOf latest
  return sensitiveGrant canonical.generation c

inductive Snapshot where
  | uninitialized (generation : Nat)
  | ready (generation : Nat) (expiresAt : JsString)
  | blocked (generation : Nat) (status : BlockedStatus) (reason : Reason) (reservationId : OpaqueId)

def publicSnapshot : Option Canonical → Snapshot
  | none => .uninitialized 0
  | some canonical =>
      match canonical.payload with
      | .ready c => .ready canonical.generation c.val.expiresAt
      | .blocked status reason fence => .blocked canonical.generation status reason fence.reservationId

def snapshot : Method Snapshot := return publicSnapshot (← readCanonical)

/-! ### Explicit credentials -/

/-- `readyPayload` of a value. -/
def readyCredential (value : JsValue) : Method Credential :=
  required (validateReadyCredential value) (brokerError .invalidCredential)

def Payload.isReady : Payload → Bool
  | .ready _ => true
  | .blocked _ _ _ => false

/-- There is no fence. -/
def unblocked (before : Option Canonical) : Method Unit :=
  match before with
  | none => pure ()
  | some canonical =>
      match canonical.payload with
      | .ready _ => pure ()
      | .blocked status reason _ => throw (blockedError canonical.generation status reason)

def installCredential (credential : JsValue) : Method Snapshot := do
  let before ← readCanonical
  unblocked before
  let c ← readyCredential credential
  let canonical ← compareAndRead (generationOf before) (.ready c) false
  check (canonical.payload.isReady = true) (brokerError .invalidStoreSnapshot)
  return publicSnapshot (some canonical)

structure RecoverRequest where
  credential : JsValue
  expectedGeneration : Nat
  reservationId : OpaqueId

def recoverRequest (request : JsValue) : Option RecoverRequest := do
  let [credential, expectedGeneration, reservationId] ←
    exactDataFields request [js "credential", js "expectedGeneration", js "reservationId"] | none
  let expectedGeneration ← uint64Text expectedGeneration
  ensure (expectedGeneration ≤ maxGeneration)
  let reservationId ← canonicalOpaqueId reservationId
  some { credential, expectedGeneration, reservationId }

/-- The fence that a request names. -/
def fenceOf (request : RecoverRequest) (before : Option Canonical) : Option (BlockedStatus × Reason × Fence) :=
  match before with
  | none => none
  | some canonical =>
      match canonical.payload with
      | .ready _ => none
      | .blocked status reason fence =>
          if canonical.generation = request.expectedGeneration ∧ fence.reservationId = request.reservationId then
            some (status, reason, fence)
          else none

/-- A credential of the same account and user, with other tokens. -/
def checkReplacement (replacement : Credential) (fence : Fence) : Method Unit := do
  check (identityHash replacement.val.accountId = fence.sourceAccountIdHash)
    (errorFor .invalidCredential .accountIdentityChanged)
  check (identityHash replacement.val.userId = fence.sourceUserIdHash)
    (errorFor .invalidCredential .userIdentityChanged)
  check (accessTokenHash replacement.val.accessToken ≠ fence.sourceAccessTokenHash)
    (errorFor .invalidCredential .accessTokenUnchanged)
  check (refreshTokenHash replacement ≠ fence.sourceRefreshTokenHash) (errorFor .invalidCredential .refreshTokenReused)

/-- `#recoverReservationCommit` -/
def recoverReservationCommit (generation : Nat) (replacement : Credential) : Method Canonical := do
  match ← attempt (compareAndRead generation (.ready replacement) false) with
  | .ok canonical => return canonical
  | .error e =>
      check (e.code = .refreshOutcomeUncertain) e
      match ← attempt readCanonical with
      | .error _ => throw e
      | .ok none => throw e
      | .ok (some latest) => do
          check (latest.rawPayload = serialize (.ready replacement) ∧ generation < latest.generation) e
          return latest

def recoverRefreshReservation (value : JsValue) : Method Snapshot := do
  let request ← required (recoverRequest value) (brokerError .invalidRequest)
  let replacement ← readyCredential request.credential
  let before ← readCanonical
  let (_, _, fence) ← required (fenceOf request before) (brokerError .invalidRequest)
  checkReplacement replacement fence
  let canonical ← recoverReservationCommit request.expectedGeneration replacement
  return publicSnapshot (some canonical)

/-! ### A refresh -/

def readClock : Method ℚ := do
  required ((← perform .now).bind JsNumber.finite?) (brokerError .invalidRequest)

def tokenTtlSeconds (expiresAt : JsString) : Method JsNumber := do
  let now ← readClock
  return (roundNumber (dateParse expiresAt - now)).dividedBy 1000

def checkTtl (expiresAt : JsString) (minTtlSeconds : JsNumber) (error : BrokerError) : Method Unit := do
  let ttl ← tokenTtlSeconds expiresAt
  check (ttl.less minTtlSeconds = false) error

/-- An error after which a commit is tried again where only the storage has changed. -/
def BrokerError.rebases (e : BrokerError) : Bool := e.code = .casConflict ∨ e.code = .refreshOutcomeUncertain

/-- The rebases of `#reserveRefresh`. -/
def reserveLoop (before : Canonical) (reservation : Payload) : Nat → Canonical → Method Canonical
  | 0, current => throw (errorAt .casConflict current.generation)
  | left + 1, current => do
      let commitId ← randomUUID .storeUnavailable
      match ← attempt (compareAndReadWith current.generation reservation commitId false) with
      | .ok canonical => return canonical
      | .error e =>
          check (e.rebases = true) e
          match ← readCanonical with
          | none => throw e
          | some latest =>
              if latest.rawPayload = serialize reservation ∧ current.generation < latest.generation then return latest
              else do
                check (latest.rawPayload = before.rawPayload) e
                reserveLoop before reservation left latest

def reserveRefresh (before : Canonical) (source : Credential) (reservationId : OpaqueId) : Method Canonical :=
  reserveLoop before (refreshReservationPayload source reservationId) maxStorageOnlyRebases before

/-- The rebases of `#commitAfterDispatch`. -/
def commitLoop (before : Canonical) (payload : Payload) : Nat → Canonical → Method Canonical
  | 0, _ => throwCode .refreshOutcomeUncertain
  | left + 1, current => do
      match ← attempt (compareAndRead current.generation payload true) with
      | .ok canonical => return canonical
      | .error e =>
          check (e.rebases = true) e
          match ← attempt readCanonical with
          | .error _ => throwCode .refreshOutcomeUncertain
          | .ok none => throw e
          | .ok (some latest) =>
              if latest.rawPayload = serialize payload then return latest
              else do
                check (latest.rawPayload = before.rawPayload) e
                commitLoop before payload left latest

def commitAfterDispatch (before : Canonical) (payload : Payload) : Method Canonical :=
  commitLoop before payload maxStorageOnlyRebases before

/-- `#transitionBlocked`, which always throws. -/
def transitionBlocked {A : Type} (before : Canonical) (status : BlockedStatus) (reason : Reason) : Method A := do
  match before.payload with
  | .ready _ => throwCode .invalidStoreSnapshot
  | .blocked _ _ fence => do
      let canonical ← commitAfterDispatch before (blockedPayload status reason fence)
      match canonical.payload with
      | .ready _ => throwCode .invalidStoreSnapshot
      | .blocked found foundReason _ => do
          check (found = status) (brokerError .invalidStoreSnapshot)
          throw (blockedError canonical.generation status foundReason)

inductive FailureKind where
  | blocked (status : BlockedStatus) (reason : Reason)
  | preDispatch

/-- `value === true` -/
def isTrue : Option JsValue → Bool
  | some (.bool true) => true
  | _ => false

def adapterFailureKind (error : AdapterError) : Option FailureKind :=
  let code := asString error.code
  if code = some (js "reauth_required") ∨ code = some (js "refresh_token_reused") ∨ code = some (js "invalid_grant") then
    some (.blocked .reauthRequired (safeReason error.code .remoteReauthRequired))
  else if isTrue error.postDispatch ∨ code = some (js "recovery_required") ∨
      code = some (js "refresh_outcome_uncertain") then
    some (.blocked .recoveryRequired (safeReason error.reason .adapterPostDispatchUncertain))
  else if isTrue error.preDispatch then some .preDispatch
  else none

def validateRefreshCandidate (previous : Credential) (candidate : Option JsValue) (minTtlSeconds : JsNumber) :
    Method Credential := do
  let c ← required (candidate.bind validateReadyCredential) (errorFor .invalidCredential .invalidRefreshCandidate)
  check (c.val.accountId = previous.val.accountId) (errorFor .invalidCredential .accountIdentityChanged)
  check (c.val.userId = previous.val.userId) (errorFor .invalidCredential .userIdentityChanged)
  check (c.val.accessToken ≠ previous.val.accessToken) (errorFor .invalidCredential .accessTokenUnchanged)
  check (c.refreshTokenValue ≠ previous.refreshTokenValue) (errorFor .invalidCredential .refreshTokenReused)
  checkTtl c.val.expiresAt minTtlSeconds (errorFor .invalidCredential .tokenTtlInsufficient)
  return c

/-- What follows the call of the adapter. -/
def settle (broker : Broker) (source : Credential) (reservation : Canonical)
    (answer : Except AdapterError (Option JsValue)) : Method Grant := do
  match answer with
  | .error error =>
      match adapterFailureKind error with
      | some .preDispatch => do
          let _ ← commitAfterDispatch reservation (.ready source)
          throwCode .refreshFailed
      | some (.blocked status reason) => transitionBlocked reservation status reason
      | none => transitionBlocked reservation .recoveryRequired .adapterPostDispatchUncertain
  | .ok candidate =>
      match ← attempt (validateRefreshCandidate source candidate broker.minTokenTtlSeconds) with
      | .error e => transitionBlocked reservation .recoveryRequired (e.reason.getD .invalidRefreshCandidate)
      | .ok c => do
          let canonical ← commitAfterDispatch reservation (.ready c)
          grantFromCanonical (some canonical)

/-- The rest of `#refreshOnce` for the credential that it refreshes. -/
def dispatchRefresh (broker : Broker) (before : Canonical) (source : Credential) : Method Grant := do
  let _ ← readClock
  let id ← randomUUID .storeUnavailable
  let attemptId ← required (canonicalOpaqueId (.string id)) (brokerError .storeUnavailable)
  let reservation ← reserveRefresh before source attemptId
  let answer ← perform
    (.refresh { credential := source, expectedGeneration := reservation.generation, attemptId })
  settle broker source reservation answer

def refreshOnce (broker : Broker) (expected : Expected) : Method Grant := do
  let (before, source) ← readyOf (← readCanonical)
  check (source.val.accountId = expected.accountId ∧ expected.accessToken ≠ []) (brokerError .invalidRequest)
  if source.val.accessToken = expected.accessToken then dispatchRefresh broker before source
  else do
    check (before.generation ≠ expected.generation) (brokerError .invalidStoreSnapshot)
    return sensitiveGrant before.generation source

/-! ### Grants -/

/-- `callerMinTtl` of an option. -/
def callerMinTtl (value : Option JsValue) (floor : JsNumber) : Option JsNumber :=
  match value with
  | none => some floor
  | some .null => some floor
  | some (.number ttl) => do
      let _ ← ttl.finite?
      ensure (ttl.less (ofNat 0) = false)
      some (if ttl.less floor then floor else ttl)
  | _ => none

/-- `grantMinTtlOption` of the options, with the value of the option. -/
def grantMinTtlOption : Option JsValue → Option (Option JsValue)
  | none => some none
  | some (.object []) => some none
  | some (.object [(key, value)]) => if key = js "minTtlSeconds" then some (some value) else none
  | _ => none

def grantTtl (broker : Broker) (options : Option JsValue) : Method JsNumber :=
  required ((grantMinTtlOption options).bind fun value => callerMinTtl value broker.minTokenTtlSeconds)
    (brokerError .invalidRequest)

def insufficientTtl (generation : Nat) : BrokerError :=
  { errorAt .tokenTtlInsufficient generation with reason := some .tokenTtlInsufficient }

/-- The rechecks of `#refreshShared`. -/
def refreshShared (broker : Broker) (minTtlSeconds : JsNumber) (expected : Expected) : Nat → Method Grant
  | 0 => throwCode .refreshFailed
  | left + 1 => do
      let task ← required (← perform (.sharedRefresh broker expected)) (brokerError .invalidRequest)
      match ← perform (.awaitTask task) with
      | .error e => throw e
      | .ok grant => do
          check (grant.accountId = expected.accountId) (brokerError .invalidRequest)
          if grant.accessToken = expected.accessToken then refreshShared broker minTtlSeconds expected left
          else do
            checkTtl grant.expiresAt minTtlSeconds (insufficientTtl grant.generation)
            return grant

/-- `#joinActiveRefresh`, for the account that is expected. -/
def joinActiveRefresh (broker : Broker) (minTtlSeconds : JsNumber) (expectedAccountId : Option JsString) :
    Method (Option Grant) := do
  match ← required (← perform (.joinSharedRefresh broker)) (brokerError .invalidRequest) with
  | none => return none
  | some task =>
      match ← perform (.awaitTask task) with
      | .error e => throw e
      | .ok grant => do
          check (∀ accountId ∈ expectedAccountId, grant.accountId = accountId) (brokerError .invalidRequest)
          checkTtl grant.expiresAt minTtlSeconds (insufficientTtl grant.generation)
          return some grant

/-- The fence of a refresh that is going on. -/
def refreshInProgress : Option Canonical → Option Fence
  | none => none
  | some canonical =>
      match canonical.payload with
      | .blocked .recoveryRequired .refreshInProgress fence => some fence
      | _ => none

def expectedOf (grant : Grant) : Expected :=
  { accessToken := grant.accessToken, accountId := grant.accountId, generation := grant.generation }

/-- `getGrant` where no refresh is joined. -/
def grantOrRefresh (broker : Broker) (ttl : JsNumber) (latest : Option Canonical) : Method Grant := do
  let grant ← grantFromCanonical latest
  let left ← tokenTtlSeconds grant.expiresAt
  if left.less ttl then refreshShared broker ttl (expectedOf grant) maxSharedRefreshRechecks
  else return grant

def getGrant (broker : Broker) (options : Option JsValue) : Method Grant := do
  let ttl ← grantTtl broker options
  let canonical ← readCanonical
  match refreshInProgress canonical with
  | none => grantOrRefresh broker ttl canonical
  | some _ =>
      match ← joinActiveRefresh broker ttl none with
      | some joined => return joined
      | none => do grantOrRefresh broker ttl (← readCanonical)

def refreshGrant (broker : Broker) (options : Option JsValue) : Method Grant := do
  let ttl ← grantTtl broker options
  let canonical ← readCanonical
  match refreshInProgress canonical with
  | none => do
      let current ← grantFromCanonical canonical
      refreshShared broker ttl (expectedOf current) maxSharedRefreshRechecks
  | some fence =>
      match ← joinActiveRefresh broker ttl none with
      | some joined => return joined
      | none => do
          let latest ← readCanonical
          let current ← grantFromCanonical latest
          if accessTokenHash current.accessToken = fence.sourceAccessTokenHash then
            refreshShared broker ttl (expectedOf current) maxSharedRefreshRechecks
          else do
            checkTtl current.expiresAt ttl (insufficientTtl current.generation)
            return current

/-! ### Workers -/

namespace Worker

/-- The worker of a broker that was constructed. -/
def absent : Worker := { accessToken := none, accountId := none, generation := none, userId := none }

/-- The worker that is shown a grant. -/
def of (grant : Grant) (userId : JsString) : Worker where
  accessToken := some grant.accessToken
  accountId := some grant.accountId
  generation := some grant.generation
  userId := some userId

end Worker

/-- The assignments of `workerLoginParams`. -/
def login (grant : Grant) : WorkerAction := fun worker =>
  match userIdFromAccessToken grant.accessToken with
  | some userId => (.ok (), .of grant userId)
  | none => (.error (brokerError .invalidCredential), { Worker.of grant [] with userId := worker.userId })

/-- A look at the worker. -/
def expects (condition : Worker → Prop) [DecidablePred condition] : WorkerAction := fun worker =>
  (if condition worker then .ok () else .error (brokerError .invalidRequest), worker)

/-- A look at the user of the worker, for a token. -/
def expectsUser (accessToken : JsString) : WorkerAction := fun worker =>
  match userIdFromAccessToken accessToken with
  | none => (.error (brokerError .invalidCredential), worker)
  | some userId => expects (fun worker => worker.userId = some userId) worker

/-- The checks and assignments behind a refresh, where the worker satisfies the condition. -/
def adopt (grant : Grant) (condition : Worker → Prop) [DecidablePred condition] : WorkerAction := fun worker =>
  match userIdFromAccessToken grant.accessToken with
  | none => (.error (brokerError .invalidCredential), worker)
  | some userId =>
      if condition worker ∧ worker.userId = some userId then (.ok (), .of grant userId)
      else (.error (brokerError .invalidRequest), worker)

def withWorker (broker : Broker) (action : WorkerAction) : Method Worker := do
  match ← perform (.worker broker action) with
  | .error e => throw e
  | .ok worker => return worker

/-- What a worker is given; its `type` is for a login only. -/
structure Delivery where
  accessToken : JsString
  chatgptAccountId : JsString
  chatgptPlanType : Option JsString
  type : Option JsString
deriving DecidableEq

def deliver (grant : Grant) : Delivery where
  accessToken := grant.accessToken
  chatgptAccountId := grant.accountId
  chatgptPlanType := grant.planType
  type := none

def workerLoginParams (broker : Broker) (options : Option JsValue) : Method Delivery := do
  let grant ← getGrant broker options
  let _ ← withWorker broker (login grant)
  return { deliver grant with type := some (js "chatgptAuthTokens") }

/-- The account of a refresh that a worker asks for. -/
def workerParams (params : JsValue) : Option JsString := do
  let [previousAccountId, reason] ← exactDataFields params [js "previousAccountId", js "reason"] | none
  ensure (asString (some reason) = some (js "unauthorized"))
  let previousAccountId ← asString (some previousAccountId)
  nonempty previousAccountId

/-- There is a token to refresh. -/
def Worker.HasToken (worker : Worker) : Prop := worker.generation.isSome = true ∧ worker.accessToken.isSome = true

instance : DecidablePred Worker.HasToken := fun _ => inferInstanceAs (Decidable (_ ∧ _))

/-- The credential that the worker has. -/
def Worker.expected (worker : Worker) (accountId : JsString) : Option Expected := do
  let accessToken ← worker.accessToken
  let generation ← worker.generation
  some { accessToken, accountId, generation }

/-- The part of `handleWorkerRefresh` that joins no refresh. -/
def refreshWorker (broker : Broker) (previousAccountId : JsString) (latest : Option Canonical) : Method Delivery := do
  let current ← grantFromCanonical latest
  check (previousAccountId = current.accountId) (brokerError .invalidRequest)
  let worker ← withWorker broker (expectsUser current.accessToken)
  let expected ← required (worker.expected previousAccountId) (brokerError .invalidRequest)
  let grant ← refreshShared broker broker.minTokenTtlSeconds expected maxSharedRefreshRechecks
  check (grant.accountId = previousAccountId) (brokerError .invalidRequest)
  let _ ← withWorker broker (adopt grant fun _ => True)
  return deliver grant

/-- What the worker is at the end of each `await` counts, not what it was at the call. -/
def handleWorkerRefresh (broker : Broker) (params : JsValue) : Method Delivery := do
  let previousAccountId ← required (workerParams params) (brokerError .invalidRequest)
  let _ ← withWorker broker (expects fun worker =>
    worker.userId.isSome = true ∧ worker.accountId = some previousAccountId)
  let before ← readCanonical
  match refreshInProgress before with
  | none => refreshWorker broker previousAccountId before
  | some _ => do
      let _ ← withWorker broker (expects Worker.HasToken)
      match ← joinActiveRefresh broker broker.minTokenTtlSeconds (some previousAccountId) with
      | some joined => do
          let _ ← withWorker broker (adopt joined fun worker => worker.accountId = some joined.accountId)
          return deliver joined
      | none => do refreshWorker broker previousAccountId (← readCanonical)

end PortableCodex.AuthBroker
