import PortableCodex.Journal.Record
import PortableCodex.Traces.Program

/-!
The filesystem operation journal: `read`, `prepare`, `prepareFresh`, `markMaterialized` and `commit`.

A call is a program over the operations of the journal directory and its lock. The operations touch the
canonical and the temporary file of one operation ID; the identity, permission and access list checks of the
directory are one operation that can fail, and handles closed without effect are left out.
-/

namespace PortableCodex.Journal

open Js Traces
open ProviderState (OpaqueId byteLength canonicalOpaqueId exactDataFields)

/-! ### Operations -/

/-- `dev` and `ino` of a file. -/
structure Identity where
  dev : Nat
  ino : Nat
deriving DecidableEq

structure FileMetadata where
  identity : Identity
  isFile : Bool
  nlink : Nat
  uid : Nat
  mode : Nat
  size : Nat
  mtimeNs : Nat
  ctimeNs : Nat

inductive FileRole where
  | canonical
  | temporary

inductive FaultPoint where
  | afterRecordRead
  | afterTempSync
  | beforeRename
  | afterRename
  | afterDirectorySync
  | beforeReadback
  | afterReadback
  | beforeLockRelease

inductive JournalOp where
  | openDirectory
  | acquireLock
  | assertCurrent
  | assertIdentityCurrent
  | assertHeld
  | inspectTemporaryRecord
  | openCanonical
  | stat (handle : FileRole)
  | lstat (path : FileRole)
  | readCanonicalFile
  | syncFile (handle : FileRole)
  | closeFile (handle : FileRole)
  | createTemporary
  | chmodTemporary
  | writeTemporary (content : Bytes)
  | renameWhileHeld (target : Option Identity)
  | syncDirectory
  | fault (point : FaultPoint)
  | releaseLock
  | closeDirectory

/-- What `open` of the canonical file yields. -/
inductive OpenAnswer where
  | opened
  | missing
  | failed

/-- What `lstat` yields. -/
inductive PathAnswer where
  | found (metadata : FileMetadata)
  | missing
  | failed

/-- What `renameWhileHeld` yields. -/
inductive RenameAnswer where
  | renamed
  | failed (renameOutcome : Option JsString)

/-- The answers; an operation without a value says whether it succeeded. -/
abbrev JournalAnswer : JournalOp → Type
  | .inspectTemporaryRecord => Option Bool
  | .openCanonical => OpenAnswer
  | .stat _ => Option FileMetadata
  | .lstat _ => PathAnswer
  | .readCanonicalFile => Option Bytes
  | .renameWhileHeld _ => RenameAnswer
  | _ => Bool

/-- An internal error, or anything else that an operation throws. -/
inductive Thrown where
  | journal (error : JournalError)
  | external

/-- A part of a call. -/
abbrev JournalProgram := Fallible JournalOp JournalAnswer Thrown

section Programs

variable {A : Type}

def ask {E : Type} (op : JournalOp) : Fallible JournalOp JournalAnswer E (JournalAnswer op) :=
  ExceptT.lift (Program.perform op)

def fail (code : ErrorCode) : JournalProgram A := throw (.journal (journalError code))

def check (condition : Prop) [Decidable condition] (code : ErrorCode) : JournalProgram Unit :=
  if condition then pure () else fail code

def checked : Except ErrorCode A → JournalProgram A
  | .ok a => pure a
  | .error code => fail code

/-- The value of an operation that throws an external error. -/
def valueOf : Option A → JournalProgram A
  | some a => pure a
  | none => throw .external

/-- An operation that throws an external error when it fails. -/
def succeed (ok : Bool) : JournalProgram Unit := if ok = true then pure () else throw .external

/-- A part whose external errors become one internal error. -/
def orFail (code : ErrorCode) (part : JournalProgram A) : JournalProgram A :=
  tryCatch part fun
    | .journal error => throw (.journal error)
    | .external => fail code

def outcomeUncertain : JournalError := { code := .journalCommitOutcomeUncertain, commitState := .uncertain }

/-- A part whose errors leave the outcome of a commit open. -/
def orUncertain (part : JournalProgram A) : JournalProgram A :=
  tryCatch part fun _ => throw (.journal outcomeUncertain)

/-! ### The directory and the lock -/

def assertCurrent : JournalProgram Unit := do check ((← ask .assertCurrent) = true) .invalidJournalDirectory

def assertIdentityCurrent : JournalProgram Unit := do
  check ((← ask .assertIdentityCurrent) = true) .invalidJournalDirectory

def assertHeld : JournalProgram Unit := do check ((← ask .assertHeld) = true) .journalIoFailed

def syncDirectory : JournalProgram Unit := do check ((← ask .syncDirectory) = true) .journalIoFailed

def fault (point : FaultPoint) : JournalProgram Unit := do check ((← ask (.fault point)) = true) .journalIoFailed

/-- The fault point of a call that has one at the end of its first read. -/
def runHook (hook : Bool) : JournalProgram Unit := if hook = true then fault .afterRecordRead else pure ()

/-! ### Reading -/

variable (currentUid : Nat) (operationId : OpaqueId)

def assertTemporaryRecordAbsent : JournalProgram Unit := do
  match ← ask .inspectTemporaryRecord with
  | none => fail .journalIoFailed
  | some true => fail .journalRecoveryRequired
  | some false => pure ()

/-- A regular file of the journal with one link. -/
def FileMetadata.Protected (metadata : FileMetadata) : Prop :=
  metadata.isFile = true ∧ metadata.nlink = 1 ∧ metadata.uid = currentUid ∧ metadata.mode &&& 0o777 = 0o600

instance protectedDecidable (metadata : FileMetadata) : Decidable (metadata.Protected currentUid) :=
  inferInstanceAs (Decidable (_ ∧ _ ∧ _ ∧ _))

/-- The metadata of a file that is there. -/
def PathAnswer.metadata : PathAnswer → Option FileMetadata
  | .found metadata => some metadata
  | .missing => none
  | .failed => none

/-- The record of the open canonical file. `hook` runs the fault point of the call. -/
def readOpenRecord (hook : Bool) (expectedIdentity : Option Identity) : JournalProgram (Identity × JournalRecord) := do
  let metadata ← valueOf (← ask (.stat .canonical))
  check (metadata.Protected currentUid ∧ metadata.size ≤ maxCanonicalBytes ∧
    expectedIdentity.all (· = metadata.identity) = true) .invalidJournalRecord
  let bytes ← valueOf (← ask .readCanonicalFile)
  let afterRead ← valueOf (← ask (.stat .canonical))
  let path ← valueOf (← ask (.lstat .canonical)).metadata
  check (metadata.identity = afterRead.identity ∧ metadata.identity = path.identity ∧
    afterRead.size = metadata.size ∧ afterRead.mtimeNs = metadata.mtimeNs ∧ afterRead.ctimeNs = metadata.ctimeNs)
    .invalidJournalRecord
  let r ← checked (parseRecord bytes)
  check (r.operationId = operationId) .invalidJournalRecord
  runHook hook
  assertCurrent
  pure (metadata.identity, r)

def readCanonicalRecord (hook : Bool) (expectedIdentity : Option Identity) :
    JournalProgram (Option (Identity × JournalRecord)) := do
  assertTemporaryRecordAbsent
  match ← ask .openCanonical with
  | .missing => do
      runHook hook
      assertCurrent
      pure none
  | .failed => fail .invalidJournalRecord
  | .opened => do
      let visible ← orFail .journalIoFailed (readOpenRecord currentUid operationId hook expectedIdentity)
      pure (some visible)

def assertRecordPathIdentity (handle path : FileRole) (expectedIdentity : Identity) (expectedSize : Nat) :
    JournalProgram Unit := orFail .journalIoFailed do
  let held ← valueOf (← ask (.stat handle))
  let metadata ← valueOf (← ask (.lstat path)).metadata
  check (held.Protected currentUid ∧ metadata.Protected currentUid ∧ held.size = expectedSize ∧
    metadata.size = expectedSize ∧ held.identity = expectedIdentity ∧ metadata.identity = expectedIdentity)
    .journalIoFailed

/-- The end of `confirmVisibleRecord` and `verifyVisibleRecord`: the record is read once more. -/
def readSameRecord (identity : Identity) (r : JournalRecord) : JournalProgram JournalRecord := do
  match ← readCanonicalRecord currentUid operationId false (some identity) with
  | some (_, again) => do
      check (canonicalEqual again.json r.json) .invalidJournalRecord
      pure again
  | none => fail .invalidJournalRecord

/-- `confirmVisibleRecord` of a record. -/
def confirmRecord (identity : Identity) (r : JournalRecord) : JournalProgram JournalRecord := orUncertain do
  let expectedSize := r.bytes.length
  assertCurrent
  assertHeld
  match ← ask .openCanonical with
  | .opened => pure ()
  | _ => throw .external
  assertRecordPathIdentity currentUid .canonical .canonical identity expectedSize
  let _ ← readSameRecord currentUid operationId identity r
  succeed (← ask (.syncFile .canonical))
  assertRecordPathIdentity currentUid .canonical .canonical identity expectedSize
  syncDirectory
  assertCurrent
  assertHeld
  let confirmed ← readSameRecord currentUid operationId identity r
  assertRecordPathIdentity currentUid .canonical .canonical identity expectedSize
  succeed (← ask (.closeFile .canonical))
  pure confirmed

def confirmVisibleRecord (visible : Option (Identity × JournalRecord)) : JournalProgram (Option JournalRecord) :=
  match visible with
  | none => pure none
  | some (identity, r) => do
      let confirmed ← confirmRecord currentUid operationId identity r
      pure (some confirmed)

def assertCanonicalRecordAbsent : JournalProgram Unit := do
  assertTemporaryRecordAbsent
  match ← ask (.lstat .canonical) with
  | .missing => assertIdentityCurrent
  | .failed => fail .journalIoFailed
  | .found _ => fail .invalidJournalRecord

def verifyVisibleRecord (verification : Option (Identity × JournalRecord)) : JournalProgram Unit :=
  match verification with
  | some (identity, r) => do
      let _ ← confirmRecord currentUid operationId identity r
  | none => orUncertain do
      assertCurrent
      assertHeld
      let visible ← readCanonicalRecord currentUid operationId false none
      check (visible.isNone = true) .invalidJournalRecord
      assertCurrent
      assertHeld
      assertCanonicalRecordAbsent

/-! ### Writing -/

def assertPathMissing (path : FileRole) : JournalProgram Unit := do
  match ← ask (.lstat path) with
  | .missing => pure ()
  | _ => fail .journalIoFailed

/-- `assertCanonicalPrecondition`: the canonical file still holds the record that was read. -/
def assertCanonicalPrecondition (visible : Option (Identity × JournalRecord)) : JournalProgram Unit := do
  assertIdentityCurrent
  match visible with
  | none => do
      assertPathMissing .canonical
      assertIdentityCurrent
  | some (identity, r) => orFail .journalIoFailed do
      match ← ask .openCanonical with
      | .opened => pure ()
      | _ => throw .external
      assertRecordPathIdentity currentUid .canonical .canonical identity r.bytes.length
      let bytes ← valueOf (← ask .readCanonicalFile)
      check (bytes = r.bytes) .journalIoFailed
      assertRecordPathIdentity currentUid .canonical .canonical identity r.bytes.length
      assertIdentityCurrent
      succeed (← ask (.closeFile .canonical))

/-- `writeCanonicalRecord` up to the rename: the identity of the temporary file. -/
def writeTemporaryRecord (visible : Option (Identity × JournalRecord)) (r : JournalRecord) : JournalProgram Identity :=
  orFail .journalIoFailed do
    assertCurrent
    assertHeld
    succeed (← ask .createTemporary)
    succeed (← ask .chmodTemporary)
    succeed (← ask (.writeTemporary r.bytes))
    succeed (← ask (.syncFile .temporary))
    let metadata ← valueOf (← ask (.stat .temporary))
    check (metadata.Protected currentUid ∧ metadata.size = r.bytes.length) .journalIoFailed
    fault .afterTempSync
    assertRecordPathIdentity currentUid .temporary .temporary metadata.identity r.bytes.length
    assertCurrent
    assertHeld
    fault .beforeRename
    assertRecordPathIdentity currentUid .temporary .temporary metadata.identity r.bytes.length
    assertCurrent
    assertHeld
    assertRecordPathIdentity currentUid .temporary .temporary metadata.identity r.bytes.length
    assertCanonicalPrecondition currentUid visible
    pure metadata.identity

/-- The rename; only a lock whose reports are trusted can say that nothing was renamed. -/
def renameRecord (trustRenameOutcome : Bool) (target : Option Identity) : JournalProgram Unit := do
  match ← ask (.renameWhileHeld target) with
  | .renamed => pure ()
  | .failed renameOutcome =>
      if trustRenameOutcome = true ∧ renameOutcome = some (js "not-committed") then fail .journalIoFailed
      else throw (.journal outcomeUncertain)

/-- `writeCanonicalRecord` after the rename. -/
def settleRecord (identity : Identity) (r : JournalRecord) : JournalProgram JournalRecord := orUncertain do
  let verifyPath := assertRecordPathIdentity currentUid .temporary .canonical identity r.bytes.length
  assertPathMissing .temporary
  verifyPath
  fault .afterRename
  verifyPath
  syncDirectory
  fault .afterDirectorySync
  assertCurrent
  assertHeld
  fault .beforeReadback
  let readback ← readSameRecord currentUid operationId identity r
  fault .afterReadback
  verifyPath
  assertCurrent
  assertHeld
  verifyPath
  succeed (← ask (.closeFile .temporary))
  pure readback

def writeCanonicalRecord (trustRenameOutcome : Bool) (visible : Option (Identity × JournalRecord))
    (r : JournalRecord) : JournalProgram (Identity × JournalRecord) := do
  let _ ← checked (canonicalBytes r.json .invalidJournalRequest)
  let identity ← writeTemporaryRecord currentUid visible r
  renameRecord trustRenameOutcome (visible.map Prod.fst)
  let readback ← settleRecord currentUid operationId identity r
  pure (identity, readback)

/-! ### Transitions -/

structure Outcome where
  record : Option JournalRecord
  replayed : Bool

/-- What the operation of `#run` returns; the verification names the record of the value. -/
structure Completed where
  commitState : CommitState
  value : Outcome
  identity : Option Identity

def Completed.verification (completed : Completed) : Option (Identity × JournalRecord) :=
  match completed.identity, completed.value.record with
  | some identity, some r => some (identity, r)
  | _, _ => none

/-- What a transition does with the record it found. -/
inductive Plan where
  | replay (existing : JournalRecord)
  | install (next : JournalRecord)

/-- The checks of `#transition` on the record it found. -/
def planTransition (input : OperationInput) (requestedState : State) (requireAbsent : Bool)
    (existing : Option JournalRecord) : Except ErrorCode Plan := do
  ensure (¬ (requireAbsent = true ∧ existing.isSome = true)) .operationAlreadyStarted
  match requestedState, existing with
  | .prepared, some existing => do
      ensure (SameOperation existing input) .operationConflict
      .ok (.replay existing)
  | .prepared, none => .ok (.install (makeRecord input (.named .prepared) .null))
  | .materialized, some existing => do
      ensure (SameOperation existing input) .operationConflict
      if existing.state = .named .materialized ∨ existing.state = .named .committed then do
        ensure (canonicalEqual existing.materialization input.materialization) .operationConflict
        .ok (.replay existing)
      else do
        ensure (existing.state = .named .prepared) .invalidStateTransition
        .ok (.install (makeRecord input (.named .materialized) input.materialization))
  | .committed, some existing => do
      ensure (SameOperation existing input) .operationConflict
      if existing.state = .named .committed then do
        ensure (canonicalEqual existing.materialization input.materialization) .operationConflict
        .ok (.replay existing)
      else do
        ensure (existing.state = .named .materialized) .invalidStateTransition
        ensure (canonicalEqual existing.materialization input.materialization) .operationConflict
        .ok (.install (makeRecord input (.named .committed) input.materialization))
  | _, none => .error .invalidStateTransition

variable (trustRenameOutcome : Bool)

def execute (visible : Option (Identity × JournalRecord)) : Plan → JournalProgram Completed
  | .replay existing =>
      pure { commitState := .notCommitted, value := { record := some existing, replayed := true },
             identity := visible.map Prod.fst }
  | .install next => do
      let (identity, published) ← writeCanonicalRecord currentUid operationId trustRenameOutcome visible next
      pure { commitState := .committed, value := { record := some published, replayed := false },
             identity := some identity }

/-- The record that `confirmVisibleRecord` returned, under the identity it was read with. -/
def withIdentity (visible : Option (Identity × JournalRecord)) (existing : Option JournalRecord) :
    Option (Identity × JournalRecord) :=
  match visible, existing with
  | some (identity, _), some r => some (identity, r)
  | _, _ => none

/-- The operation of `#transition`. -/
def transition (input : OperationInput) (requestedState : State) (requireAbsent : Bool) : JournalProgram Completed := do
  assertHeld
  let visible ← readCanonicalRecord currentUid operationId true none
  let existing ← confirmVisibleRecord currentUid operationId visible
  let plan ← checked (planTransition input requestedState requireAbsent existing)
  execute currentUid operationId trustRenameOutcome (withIdentity visible existing) plan

/-- The operation of `read`. -/
def readVisible : JournalProgram Completed := do
  assertHeld
  let visible ← readCanonicalRecord currentUid operationId true none
  let r ← confirmVisibleRecord currentUid operationId visible
  pure { commitState := .notCommitted, value := { record := r, replayed := false }, identity := visible.map Prod.fst }

/-! ### Calls -/

/-- The operation of a call under the lock, with the checks of `#run` around it. -/
def lockedRun (operation : JournalProgram Completed) : JournalProgram Completed := do
  assertCurrent
  let completed ← operation
  if (← ask (.fault .beforeLockRelease)) = false then
    throw (.journal { code := .journalLockReleaseFailed, commitState := completed.commitState })
  verifyVisibleRecord currentUid operationId completed.verification
  pure completed

/-- `normalizeRuntimeError` of an error before the operation has completed. -/
def normalizeRuntimeError : Thrown → JournalError
  | .journal error => error
  | .external => journalError .journalIoFailed

/-- The commit state of a run, as an error of the lock release reports it. -/
def runCommitState : Except JournalError Completed → CommitState
  | .ok completed => completed.commitState
  | .error error => error.commitState

/-- `#run` -/
def run (operation : JournalProgram Completed) : Fallible JournalOp JournalAnswer JournalError Outcome := do
  if (← ask .openDirectory) = false then throw (journalError .invalidJournalDirectory)
  let locked ← ask .acquireLock
  let ended : Except JournalError Completed ←
    if locked = true then do
      let ended ← ExceptT.lift (lockedRun currentUid operationId operation).run
      pure (ended.mapError normalizeRuntimeError)
    else pure (.error (journalError .journalIoFailed))
  let released ← if locked = true then ask .releaseLock else pure true
  let closed ← ask .closeDirectory
  if released = true ∧ closed = true then
    match ended with
    | .ok completed => pure completed.value
    | .error error => throw error
  else throw { code := .journalLockReleaseFailed, commitState := runCommitState ended }

end Programs

inductive Call where
  | read (options : JsValue)
  | prepare (options : JsValue)
  | prepareFresh (options : JsValue)
  | markMaterialized (options : JsValue)
  | commit (options : JsValue)

/-- A call whose options were accepted. -/
inductive Request where
  | read (operationId : OpaqueId)
  | transition (input : OperationInput) (requestedState : State) (requireAbsent : Bool)

def Request.operationId : Request → OpaqueId
  | .read operationId => operationId
  | .transition input _ _ => input.operationId

def readOptions (options : JsValue) : Option OpaqueId := do
  let [operationId] ← exactDataFields options [js "operationId"] | none
  canonicalOpaqueId operationId

def Call.request : Call → Except ErrorCode Request
  | .read options => do
      let operationId ← found (readOptions options) .invalidJournalRequest
      .ok (.read operationId)
  | .prepare options => do
      let input ← normalizeOperationInput options .invalidJournalRequest false
      .ok (.transition input .prepared false)
  | .prepareFresh options => do
      let input ← normalizeOperationInput options .invalidJournalRequest false
      .ok (.transition input .prepared true)
  | .markMaterialized options => do
      let input ← normalizeOperationInput options .invalidJournalRequest true
      .ok (.transition input .materialized false)
  | .commit options => do
      let input ← normalizeOperationInput options .invalidJournalRequest true
      .ok (.transition input .committed false)

/-- The program of a call, over the files of its operation ID. -/
def Request.program (currentUid : Nat) (trustRenameOutcome : Bool) :
    Request → Fallible JournalOp JournalAnswer JournalError Outcome
  | .read operationId => run currentUid operationId (readVisible currentUid operationId)
  | .transition input requestedState requireAbsent =>
      run currentUid input.operationId
        (Journal.transition currentUid input.operationId trustRenameOutcome input requestedState requireAbsent)

end PortableCodex.Journal
