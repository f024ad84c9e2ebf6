import Mathlib.Logic.Function.Basic
import PortableCodex.AuthStore.Record
import PortableCodex.Traces.Program

/-!
The encrypted auth state store: `read`, `compareAndSwap` and `rotateEncryption`.

A call is a program over the operations of the store directory, its lock and its key provider. The
directory holds the canonical file and the promotion candidates, files a commit writes before it renames
one of them. The checks of the directory (its identity, its permissions, its access lists) are one
operation that can fail with the message of the failed check; handles closed without effect are left out.
-/

namespace PortableCodex.AuthStore

open Js ProviderState Traces

/-! ### Errors of the surroundings -/

/-- What the lock, the file system or a fault hook throws; it is never an `AuthStateStoreError`. -/
structure ExternalError where
  code : Option JsString
  renameOutcome : Option JsString
deriving DecidableEq

inductive Thrown where
  | store (error : StoreError)
  | external (error : ExternalError)

/-- `ownDataProperty(error, "code")` -/
def Thrown.code : Thrown → Option JsString
  | .store error => some error.code.text
  | .external error => error.code

/-- `ownDataProperty(error, "renameOutcome")` -/
def Thrown.renameOutcome : Thrown → Option JsString
  | .store _ => none
  | .external error => error.renameOutcome

inductive Phase where
  | notRenamed
  | renameAttempted
  | renamed
  | synced
deriving DecidableEq

/-- `UNSAFE_LOCK_CODES` -/
def isUnsafeLockCode (code : Option JsString) : Prop :=
  code = some (js "lock_cleanup_failed") ∨ code = some (js "lock_lost") ∨ code = some (js "lock_replaced") ∨
    code = some (js "unsafe_lock_file")

instance isUnsafeLockCodeDecidable : DecidablePred isUnsafeLockCode := fun _ =>
  inferInstanceAs (Decidable (_ ∨ _ ∨ _ ∨ _))

def notCommitted (code : ErrorCode) (message : String) : StoreError :=
  { code, message, commitState := some .notCommitted, retryable := false }

def outcomeUncertain : StoreError :=
  { code := .commitOutcomeUncertain, message := "auth state commit outcome is uncertain",
    commitState := some .uncertain, retryable := false }

def wrapExternalError (error : Thrown) (phase : Phase) : StoreError :=
  if phase = .renameAttempted ∧ error.renameOutcome = some (js "not-committed") then
    if isUnsafeLockCode error.code then
      notCommitted .recoveryRequired "auth state advisory lock requires operator recovery"
    else notCommitted .authStateIoFailed "auth state storage operation failed before commit"
  else if phase = .renameAttempted ∨ phase = .renamed ∨ phase = .synced ∨
      error.code = some (js "lock_commit_uncertain") then outcomeUncertain
  else if isUnsafeLockCode error.code then
    notCommitted .recoveryRequired "auth state advisory lock requires operator recovery"
  else if error.code = some (js "unsupported_platform") then
    notCommitted .invalidLockProvider "auth state advisory lock is unsupported"
  else
    match error with
    | .store own => own
    | .external _ => notCommitted .authStateIoFailed "auth state storage operation failed"

/-! ### Operations -/

/-- `NEXT_PREFIX` -/
def nextPrefix : JsString := js ".auth-state.enc.next-"

/-- The name of a promotion candidate. -/
abbrev CandidateName := { s : JsString // nextPrefix <+: s }

def candidateName (suffix : Block 12) : CandidateName := ⟨nextPrefix ++ hex suffix.val, List.prefix_append _ _⟩

structure FileMetadata where
  isFile : Bool
  nlink : Nat
  mode : Nat
  uid : Nat
  size : Nat

inductive FaultPoint where
  | afterTempSync
  | afterRename
  | afterDirectorySync

inductive StoreOp where
  | openDirectoryGuard
  | acquireLock
  | assertDirectoryCurrent
  | readDirectory
  | assertHeld
  | openCanonical
  | statCanonical
  | readCanonicalFile
  | getKey (keyId : OpaqueId)
  | activeKey
  | randomBytes
  | createTemporary (name : CandidateName)
  | chmodTemporary (name : CandidateName)
  | writeTemporary (name : CandidateName) (content : Bytes)
  | syncTemporary (name : CandidateName)
  | closeTemporary (name : CandidateName)
  | fault (point : FaultPoint)
  | renameWhileHeld (name : CandidateName)
  | syncDirectory
  | releaseLock

/-- What `getKey` yields. -/
inductive KeyAnswer (Key : Type) where
  | throws
  | missing
  | malformed
  | secret (key : Key)

/-- What `activeKey` yields. -/
inductive ActiveKeyAnswer (Key : Type) where
  | throws
  | malformed
  | invalidId
  | invalidKey
  | active (keyId : OpaqueId) (key : Key)

/-- The answers: a failed directory check by its message, the rest by their value or error. -/
abbrev StoreAnswer (Key : Type) : StoreOp → Type
  | .openDirectoryGuard => Bool
  | .assertDirectoryCurrent => Option String
  | .readDirectory => Option (List JsString)
  | .statCanonical => Except ExternalError FileMetadata
  | .readCanonicalFile => Except ExternalError Bytes
  | .getKey _ => KeyAnswer Key
  | .activeKey => ActiveKeyAnswer Key
  | .randomBytes => Except ExternalError (Option (Block 12))
  | .releaseLock => Bool
  | _ => Except ExternalError Unit

/-- A part of a call. -/
abbrev StoreProgram (Key : Type) := Fallible StoreOp (StoreAnswer Key) Thrown

section Programs

variable {Key A : Type}

def ask {E : Type} (op : StoreOp) : Fallible StoreOp (StoreAnswer Key) E (StoreAnswer Key op) :=
  ExceptT.lift (Program.perform op)

/-- The value of an operation that throws its errors. -/
def valueOf : Except ExternalError A → StoreProgram Key A
  | .ok a => pure a
  | .error error => throw (.external error)

/-- The value of a check that throws its refusal. -/
def checked : Except Refusal A → StoreProgram Key A
  | .ok a => pure a
  | .error refusal => throw (.store refusal.val)

def fail (refusal : Refusal) : StoreProgram Key A := checked (.error refusal)

/-! ### The directory -/

def assertDirectoryCurrent : StoreProgram Key Unit := do
  match ← ask .assertDirectoryCurrent with
  | none => pure ()
  | some message => fail (failure .invalidStoreDirectory message)

def assertHeld : StoreProgram Key Unit := do valueOf (← ask .assertHeld)

def syncDirectory : StoreProgram Key Unit := do valueOf (← ask .syncDirectory)

def proveDirectoryDurable : StoreProgram Key Unit := do
  assertDirectoryCurrent
  assertHeld
  syncDirectory
  assertDirectoryCurrent
  assertHeld

def assertNoRecoveryArtifacts : StoreProgram Key Unit := do
  assertDirectoryCurrent
  match ← ask .readDirectory with
  | none => fail (failure .authStateIoFailed "auth state directory could not be inspected")
  | some entries =>
      assertDirectoryCurrent
      checked (ensure (∀ entry ∈ entries, ¬ nextPrefix <+: entry)
        (failure .recoveryRequired "auth state directory contains an unresolved promotion candidate"))

/-! ### Reading -/

def keyById (keyId : OpaqueId) : StoreProgram Key Key := do
  match ← ask (.getKey keyId) with
  | .throws => fail (retryable .keyUnavailable "auth state key is unavailable")
  | .missing => fail (retryable .keyUnavailable "auth state key is unavailable")
  | .malformed => fail (failure .invalidKeyMaterial "auth state key must be a 256-bit secret KeyObject")
  | .secret key => pure key

/-- The checks of `#readCanonical` on the metadata of the open file. -/
def checkMetadata (brokerUid : Option Nat) (metadata : FileMetadata) : Except Refusal Unit := do
  ensure (metadata.isFile = true ∧ metadata.nlink = 1 ∧ metadata.mode &&& 0o077 = 0)
    (failure .invalidAuthState "auth state file is not a protected regular file")
  ensure (∀ uid ∈ brokerUid, metadata.uid = uid)
    (failure .invalidAuthState "auth state file must be owned by the broker")
  ensure (metadata.size ≤ maxEnvelopeBytes) (failure .invalidAuthState "auth state envelope is too large")

/-- The file behind the canonical path, as it is read in the `try` of `#readCanonical`. -/
def readCanonicalFile (brokerUid : Option Nat) : StoreProgram Key Bytes := do
  valueOf (← ask .openCanonical)
  let metadata ← valueOf (← ask .statCanonical)
  checked (checkMetadata brokerUid metadata)
  valueOf (← ask .readCanonicalFile)

variable (cipher : Cipher Key) (authorityId : OpaqueId) (brokerUid : Option Nat)

def decrypt (raw : JsString) : StoreProgram Key (StoreRecord × OpaqueId) := do
  let envelope ← checked (readEnvelope authorityId raw)
  let key ← keyById envelope.keyId
  let r ← checked (openEnvelope cipher authorityId envelope key)
  pure (r, envelope.keyId)

/-- `#readCanonical`: the record and the ID of its key; `none` for a missing file that may be missing. -/
def readCanonical (allowMissing : Bool) : StoreProgram Key (Option (StoreRecord × OpaqueId)) := do
  assertDirectoryCurrent
  match ← ExceptT.lift (readCanonicalFile brokerUid).run with
  | .ok bytes =>
      assertDirectoryCurrent
      let found ← decrypt cipher authorityId (decodeUtf8 bytes)
      pure (some found)
  | .error error =>
      if allowMissing = true ∧ error.code = some (js "ENOENT") then do
        assertDirectoryCurrent
        pure none
      else
        match error with
        | .store own => throw (.store own)
        | .external _ =>
            if error.code = some (js "ELOOP") then
              fail (failure .invalidAuthState "auth state canonical path must not be a symbolic link")
            else fail (failure .authStateIoFailed "auth state file could not be read")

/-! ### Writing -/

def activeKey : StoreProgram Key (OpaqueId × Key) := do
  match ← ask .activeKey with
  | .throws => fail (retryable .keyUnavailable "active auth state key is unavailable")
  | .malformed => fail (failure .invalidKeyProvider "active key response is invalid")
  | .invalidId => fail (failure .invalidKeyId "key ID is invalid")
  | .invalidKey => fail (failure .invalidKeyMaterial "auth state key must be a 256-bit secret KeyObject")
  | .active keyId key => pure (keyId, key)

/-- Twelve bytes of `randomBytesFn`. -/
def twelveBytes (message : String) : StoreProgram Key (Block 12) := do
  match ← valueOf (← ask .randomBytes) with
  | some block => pure block
  | none => fail (failure .invalidRandomSource message)

/-- Part of `#commit` in a phase, with its errors wrapped for that phase. -/
def inPhase (phase : Phase) (part : StoreProgram Key A) : StoreProgram Key A :=
  tryCatch part fun error => throw (.store (wrapExternalError error phase))

def createTemporary (name : CandidateName) : StoreProgram Key Unit := do valueOf (← ask (.createTemporary name))

def chmodTemporary (name : CandidateName) : StoreProgram Key Unit := do valueOf (← ask (.chmodTemporary name))

def writeTemporary (name : CandidateName) (content : Bytes) : StoreProgram Key Unit := do
  valueOf (← ask (.writeTemporary name content))

def syncTemporary (name : CandidateName) : StoreProgram Key Unit := do valueOf (← ask (.syncTemporary name))

def closeTemporary (name : CandidateName) : StoreProgram Key Unit := do valueOf (← ask (.closeTemporary name))

def fault (point : FaultPoint) : StoreProgram Key Unit := do valueOf (← ask (.fault point))

def renameWhileHeld (name : CandidateName) : StoreProgram Key Unit := do valueOf (← ask (.renameWhileHeld name))

def writeCandidate (name : CandidateName) (content : Bytes) : StoreProgram Key Unit := do
  assertDirectoryCurrent
  createTemporary name
  chmodTemporary name
  writeTemporary name content
  syncTemporary name
  closeTemporary name
  fault .afterTempSync
  assertDirectoryCurrent
  assertHeld

/-- The checks of `#commit` between the rename and the end of the directory sync. -/
def settleRename : StoreProgram Key Unit := do
  fault .afterRename
  assertDirectoryCurrent
  assertHeld
  syncDirectory

def commitVerificationFailed : StoreError :=
  { code := .commitVerificationFailed, message := "committed auth state failed readback verification",
    commitState := some .uncertain, retryable := false }

/-- The readback of `#commit`. -/
def verifyCommitted (r : StoreRecord) (keyId : OpaqueId) : StoreProgram Key (StoreRecord × OpaqueId) := do
  fault .afterDirectorySync
  assertDirectoryCurrent
  assertHeld
  match ← readCanonical cipher authorityId brokerUid false with
  | some committed =>
      if committed = (r, keyId) then do
        assertDirectoryCurrent
        pure committed
      else throw (.store commitVerificationFailed)
  | none => fail (failure .authStateIoFailed "auth state file could not be read")

/-- The `try` of `#commit`. -/
def install (name : CandidateName) (raw : JsString) (r : StoreRecord) (keyId : OpaqueId) :
    StoreProgram Key (StoreRecord × OpaqueId) := do
  inPhase .notRenamed (writeCandidate name (encodeUtf8 raw))
  inPhase .renameAttempted (renameWhileHeld name)
  inPhase .renamed settleRename
  inPhase .synced (verifyCommitted cipher authorityId brokerUid r keyId)

/-- `#commit` -/
def commit (r : StoreRecord) : StoreProgram Key (StoreRecord × OpaqueId) := do
  let (keyId, key) ← activeKey
  let nonce ← twelveBytes "auth state nonce source is invalid"
  let raw ← checked (encryptRecord cipher authorityId keyId key nonce r)
  let suffix ← twelveBytes "auth state temporary-name source is invalid"
  install cipher authorityId brokerUid (candidateName suffix) raw r keyId

/-! ### Transactions -/

/-- `resultFromRecord` -/
structure Result where
  generation : Generation
  commitId : OpaqueId
  keyId : OpaqueId
  payload : Payload
  replayed : Bool
deriving DecidableEq

def resultFromRecord (found : StoreRecord × OpaqueId) (replayed : Bool) : Result :=
  { generation := found.1.generation, commitId := found.1.commitId, keyId := found.2, payload := found.1.payload,
    replayed }

structure Outcome where
  committed : Bool
  value : Option Result

/-- The commit state an error of the lock release reports. -/
def releaseCommitState (mutation : Bool) : Except StoreError Outcome → CommitState
  | .error error =>
      match error.commitState with
      | some .notCommitted => .notCommitted
      | some .uncertain => .uncertain
      | _ => .notCommitted
  | .ok outcome => if mutation = true ∧ outcome.committed = true then .committed else .notCommitted

def lockReleaseFailed (commitState : CommitState) : StoreError :=
  { code := .lockReleaseFailed, message := "auth state lock release failed after the operation",
    commitState := some commitState, retryable := false }

/-- `#withTransaction` -/
def withTransaction (mutation : Bool) (operation : StoreProgram Key Outcome) :
    Fallible StoreOp (StoreAnswer Key) StoreError (Option Result) := do
  if (← ask .openDirectoryGuard) = false then
    throw (failure .invalidStoreDirectory "auth state directory is unavailable or unsafe").val
  match ← ask .acquireLock with
  | .error error => throw (wrapExternalError (.external error) .notRenamed)
  | .ok _ =>
      let ended ← ExceptT.lift (do assertDirectoryCurrent; operation : StoreProgram Key Outcome).run
      let outcome := ended.mapError fun error => wrapExternalError error .notRenamed
      if (← ask .releaseLock) = true then
        match outcome with
        | .ok outcome => pure outcome.value
        | .error error => throw error
      else
        throw (lockReleaseFailed (releaseCommitState mutation outcome))

/-! ### Calls -/

/-- What a call does after it has read the current record. -/
inductive Plan where
  | replay (found : StoreRecord × OpaqueId)
  | commit (next : StoreRecord)

/-- The record after the given generation. -/
def nextRecord (current : Generation) (commitId : OpaqueId) (operation : Operation) (payload : Payload) :
    Except Refusal StoreRecord :=
  if h : current.val < maxGeneration then
    .ok { generation := ⟨current.val + 1, Nat.succ_lt_succ h⟩, baseGeneration := current, commitId, operation, payload,
          succeeds := rfl }
  else .error (failure .generationExhausted "auth state generation is exhausted")

theorem zero_lt_generations : 0 < 2 ^ 64 := by decide

def planCompareAndSwap (expectedGeneration : Generation) (commitId : OpaqueId) (payload : Payload)
    (current : Option (StoreRecord × OpaqueId)) : Except Refusal Plan :=
  match current.filter fun found => found.1.commitId = commitId with
  | some found => do
      ensure (found.1.operation = .compareAndSwap ∧ found.1.payload = payload)
        (failure .commitIdConflict "auth state commit ID was reused for a different operation or content")
      ensure (found.1.baseGeneration = expectedGeneration)
        (retryable .generationConflict "auth state replay generation does not match")
      .ok (.replay found)
  | none => do
      let currentGeneration := (current.map fun found => found.1.generation).getD ⟨0, zero_lt_generations⟩
      ensure (currentGeneration = expectedGeneration) (retryable .generationConflict "auth state generation does not match")
      let next ← nextRecord currentGeneration commitId .compareAndSwap payload
      .ok (.commit next)

def planRotateEncryption (expectedGeneration : Generation) (commitId : OpaqueId) :
    Option (StoreRecord × OpaqueId) → Except Refusal Plan
  | some current =>
      if current.1.commitId = commitId then do
        ensure (current.1.operation = .rotateEncryption)
          (failure .commitIdConflict "auth state commit ID was reused for a different operation")
        ensure (current.1.baseGeneration = expectedGeneration)
          (retryable .generationConflict "auth state replay generation does not match")
        .ok (.replay current)
      else do
        ensure (current.1.generation = expectedGeneration)
          (retryable .generationConflict "auth state generation does not match")
        let next ← nextRecord current.1.generation commitId .rotateEncryption current.1.payload
        .ok (.commit next)
  -- the file is not read with `allowMissing` here
  | none => .error (failure .authStateIoFailed "auth state file could not be read")

variable (cipher : Cipher Key) (authorityId : OpaqueId) (brokerUid : Option Nat)

def execute : Plan → StoreProgram Key Outcome
  | .replay found => do
      proveDirectoryDurable
      pure { committed := false, value := some (resultFromRecord found true) }
  | .commit next => do
      let committed ← commit cipher authorityId brokerUid next
      pure { committed := true, value := some (resultFromRecord committed false) }

/-- The transaction of `compareAndSwap` and `rotateEncryption`. -/
def transact (allowMissing : Bool) (plan : Option (StoreRecord × OpaqueId) → Except Refusal Plan) :
    StoreProgram Key Outcome := do
  assertNoRecoveryArtifacts
  assertHeld
  let current ← readCanonical cipher authorityId brokerUid allowMissing
  let plan ← checked (plan current)
  execute cipher authorityId brokerUid plan

/-- The transaction of `read`. -/
def readCurrent : StoreProgram Key Outcome := do
  assertNoRecoveryArtifacts
  assertHeld
  let current ← readCanonical cipher authorityId brokerUid true
  proveDirectoryDurable
  pure { committed := false, value := current.map fun found => resultFromRecord found false }

/-- An argument, checked before the transaction. -/
def argument : Except Refusal A → Fallible StoreOp (StoreAnswer Key) StoreError A
  | .ok a => pure a
  | .error refusal => throw refusal.val

def read : Fallible StoreOp (StoreAnswer Key) StoreError (Option Result) :=
  withTransaction false (readCurrent cipher authorityId brokerUid)

def compareAndSwap (expectedGeneration commitId payload : JsValue) :
    Fallible StoreOp (StoreAnswer Key) StoreError (Option Result) := do
  let commitId ← argument (validateOpaqueId commitId .invalidCommitId "commit ID")
  let payload ← argument (validatePayload payload)
  let expectedGeneration ← argument (parseGeneration expectedGeneration true)
  withTransaction true
    (transact cipher authorityId brokerUid true (planCompareAndSwap expectedGeneration commitId payload))

def rotateEncryption (expectedGeneration commitId : JsValue) :
    Fallible StoreOp (StoreAnswer Key) StoreError (Option Result) := do
  let commitId ← argument (validateOpaqueId commitId .invalidCommitId "commit ID")
  let expectedGeneration ← argument (parseGeneration expectedGeneration true)
  withTransaction true
    (transact cipher authorityId brokerUid false (planRotateEncryption expectedGeneration commitId))

inductive Call where
  | read
  | compareAndSwap (expectedGeneration commitId payload : JsValue)
  | rotateEncryption (expectedGeneration commitId : JsValue)

def Call.program : Call → Fallible StoreOp (StoreAnswer Key) StoreError (Option Result)
  | .read => AuthStore.read cipher authorityId brokerUid
  | .compareAndSwap expectedGeneration commitId payload =>
      AuthStore.compareAndSwap cipher authorityId brokerUid expectedGeneration commitId payload
  | .rotateEncryption expectedGeneration commitId =>
      AuthStore.rotateEncryption cipher authorityId brokerUid expectedGeneration commitId

end Programs

end PortableCodex.AuthStore
