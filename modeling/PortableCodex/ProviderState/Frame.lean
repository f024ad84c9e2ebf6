import PortableCodex.ProviderState.Storage

/-!
Delta frames, checkpoint frames and their normalizers.

A frame type is a `Frame`: it has a contract version, a sequence and a JSON form, and a normalizer
for each version. `Frame` is what the codec needs of it: the text of a frame normalizes back
to the frame, and a normalized frame has the version it was normalized for.
-/

namespace PortableCodex.ProviderState

open Js

/-- The two state formats. -/
inductive Version where
  | v2
  | v3
deriving DecidableEq

namespace Version

def number : Version → Nat
  | .v2 => 2
  | .v3 => 3

/-- Only version 2 keeps committed operations in its checkpoints. -/
def retainCommittedOperations : Version → Bool
  | .v2 => true
  | .v3 => false

def json (version : Version) : JsValue := .number (Js.ofNat version.number)

end Version

/-- `value === format.contractVersion` -/
def isVersion (version : Version) (value : JsValue) : Prop := safeInteger value = some version.number

instance (version : Version) (value : JsValue) : Decidable (isVersion version value) :=
  inferInstanceAs (Decidable (_ = _))

theorem isVersion_json (form : Form) (version : Version) : isVersion version (form.of version.json) := by
  have small : version.number < 2 ^ 53 := by cases version <;> decide
  rw [isVersion, Version.json, form.of_ofNat small, safeInteger, safeNat?_ofNat small]

/-- `value === text` -/
def isText (text : JsString) : JsValue → Bool
  | .string s => s = text
  | _ => false

/-- The own string property `key`, if there is one. -/
def ownString (value : JsValue) (key : JsString) : Option JsString := do
  let members ← inspectPlainObject value
  match getMember members key with
  | some (.string s) => some s
  | _ => none

/-! ### Operations -/

/-- What committing adds to an operation. -/
structure Commit where
  committedStateRevision : PositiveUint64
  expectedStorage : Option ExpectedStorage
  result : CanonicalObject
  storageState : StorageState
deriving DecidableEq

/-- An operation of the generation state, prepared or committed. -/
structure Operation where
  kind : Kind
  operationId : OpaqueId
  preparedChecksum : Checksum
  preparedStateRevision : PositiveUint64
  request : CanonicalObject
  storageId : OpaqueId
  storageStateBefore : Option StorageState
  commit : Option Commit
deriving DecidableEq

def storageBeforeJson : Option StorageState → JsValue := nullableJson StorageState.json

def canonicalStorageStateBefore : JsValue → Option (Option StorageState) := nullable canonicalStorageState

theorem canonicalStorageStateBefore_reads : Reads canonicalStorageStateBefore storageBeforeJson :=
  nullable_reads canonicalStorageState_reads rfl

def preparedOperationKeys : List JsString :=
  [js "kind", js "operationId", js "preparedChecksum", js "preparedStateRevision", js "request",
    js "state", js "storageId", js "storageStateBefore"]

def committedOperationKeys : List JsString :=
  preparedOperationKeys ++
    [js "committedStateRevision", js "expectedStorage", js "result", js "storageState"]

/-- `checkpointOperationRecord` -/
def Operation.json (operation : Operation) : JsValue :=
  let prepared (state : JsString) : List JsValue :=
    [.string operation.kind.text, textJson operation.operationId, textJson operation.preparedChecksum,
      uint64Json operation.preparedStateRevision, operation.request.value, .string state,
      textJson operation.storageId, storageBeforeJson operation.storageStateBefore]
  match operation.commit with
  | none => record preparedOperationKeys (prepared (js "prepared"))
  | some commit =>
      record committedOperationKeys (prepared (js "committed") ++
        [uint64Json commit.committedStateRevision,
          nullableJson ExpectedStorage.json commit.expectedStorage, commit.result.value,
          commit.storageState.json])

/-- The prepared part of a checkpoint operation record, its commit added. -/
def readPreparedOperation (kind operationId preparedChecksum preparedStateRevision request storageId
    storageStateBefore : JsValue) (commit : Option Commit) : Option Operation := do
  let kind ← canonicalOperationKind kind
  let operationId ← canonicalOpaqueId operationId
  let preparedChecksum ← sha256Text preparedChecksum
  let preparedStateRevision ← canonicalPositiveUint64 preparedStateRevision
  let request ← readCanonicalObject request
  let storageId ← canonicalOpaqueId storageId
  let storageStateBefore ← canonicalStorageStateBefore storageStateBefore
  some { kind, operationId, preparedChecksum, preparedStateRevision, request, storageId,
         storageStateBefore, commit }

def normalizeCheckpointOperationRecord (value : JsValue) : Option Operation := do
  let state ← ownString value (js "state")
  if state = js "prepared" then
    let [kind, operationId, preparedChecksum, preparedStateRevision, request, _, storageId,
      storageStateBefore] ← exactDataFields value preparedOperationKeys | none
    readPreparedOperation kind operationId preparedChecksum preparedStateRevision request storageId
      storageStateBefore none
  else if state = js "committed" then
    let [kind, operationId, preparedChecksum, preparedStateRevision, request, _, storageId,
      storageStateBefore, committedStateRevision, expectedStorage, result, storageState] ←
      exactDataFields value committedOperationKeys | none
    let committedStateRevision ← canonicalPositiveUint64 committedStateRevision
    let expectedStorage ← canonicalExpectedStorage expectedStorage
    let result ← readCanonicalObject result
    let storageState ← canonicalStorageState storageState
    readPreparedOperation kind operationId preparedChecksum preparedStateRevision request storageId
      storageStateBefore (some { committedStateRevision, expectedStorage, result, storageState })
  else none

/-! ### Delta frames -/

structure PreparedFrame where
  contractVersion : Version
  kind : Kind
  operationId : OpaqueId
  previousChecksum : Option Checksum
  request : CanonicalObject
  sequence : Sequence
  stateRevision : PositiveUint64
  storageId : OpaqueId
  storageStateBefore : Option StorageState
deriving DecidableEq

structure CommittedFrame where
  contractVersion : Version
  expectedStorage : Option ExpectedStorage
  operationId : OpaqueId
  preparedChecksum : Option Checksum
  previousChecksum : Option Checksum
  result : CanonicalObject
  sequence : Sequence
  stateRevision : PositiveUint64
  storageState : StorageState
deriving DecidableEq

inductive DeltaFrame where
  | prepared (frame : PreparedFrame)
  | committed (frame : CommittedFrame)
deriving DecidableEq

namespace DeltaFrame

def contractVersion : DeltaFrame → Version
  | .prepared frame => frame.contractVersion
  | .committed frame => frame.contractVersion

def operationId : DeltaFrame → OpaqueId
  | .prepared frame => frame.operationId
  | .committed frame => frame.operationId

def previousChecksum : DeltaFrame → Option Checksum
  | .prepared frame => frame.previousChecksum
  | .committed frame => frame.previousChecksum

def sequence : DeltaFrame → Sequence
  | .prepared frame => frame.sequence
  | .committed frame => frame.sequence

def stateRevision : DeltaFrame → PositiveUint64
  | .prepared frame => frame.stateRevision
  | .committed frame => frame.stateRevision

end DeltaFrame

def preparedFrameKeys : List JsString :=
  [js "contractVersion", js "kind", js "operationId", js "previousChecksum", js "request",
    js "sequence", js "stateRevision", js "storageId", js "storageStateBefore", js "type"]

def committedFrameKeys : List JsString :=
  [js "contractVersion", js "expectedStorage", js "operationId", js "preparedChecksum",
    js "previousChecksum", js "result", js "sequence", js "stateRevision", js "storageState", js "type"]

def PreparedFrame.json (frame : PreparedFrame) : JsValue :=
  record preparedFrameKeys
    [frame.contractVersion.json, .string frame.kind.text, textJson frame.operationId,
      nullableJson textJson frame.previousChecksum, frame.request.value, numberJson frame.sequence,
      uint64Json frame.stateRevision, textJson frame.storageId,
      storageBeforeJson frame.storageStateBefore, .string (js "prepared")]

def CommittedFrame.json (frame : CommittedFrame) : JsValue :=
  record committedFrameKeys
    [frame.contractVersion.json, nullableJson ExpectedStorage.json frame.expectedStorage,
      textJson frame.operationId, nullableJson textJson frame.preparedChecksum,
      nullableJson textJson frame.previousChecksum, frame.result.value, numberJson frame.sequence,
      uint64Json frame.stateRevision, frame.storageState.json, .string (js "committed")]

def DeltaFrame.json : DeltaFrame → JsValue
  | .prepared frame => frame.json
  | .committed frame => frame.json

def normalizePreparedDeltaFrame (version : Version) (value : JsValue) : Option PreparedFrame := do
  let [contractVersion, kind, operationId, previousChecksum, request, sequence, stateRevision,
    storageId, storageStateBefore, type] ← exactDataFields value preparedFrameKeys | none
  ensure (isVersion version contractVersion ∧ isText (js "prepared") type)
  let kind ← canonicalOperationKind kind
  let operationId ← canonicalOpaqueId operationId
  let previousChecksum ← canonicalPreviousChecksum previousChecksum
  let request ← readCanonicalObject request
  let sequence ← canonicalSequence sequence
  let stateRevision ← canonicalPositiveUint64 stateRevision
  let storageId ← canonicalOpaqueId storageId
  let storageStateBefore ← canonicalStorageStateBefore storageStateBefore
  some { contractVersion := version, kind, operationId, previousChecksum, request, sequence,
         stateRevision, storageId, storageStateBefore }

def normalizeCommittedDeltaFrame (version : Version) (value : JsValue) : Option CommittedFrame := do
  let [contractVersion, expectedStorage, operationId, preparedChecksum, previousChecksum, result,
    sequence, stateRevision, storageState, type] ← exactDataFields value committedFrameKeys | none
  ensure (isVersion version contractVersion ∧ isText (js "committed") type)
  let expectedStorage ← canonicalExpectedStorage expectedStorage
  let operationId ← canonicalOpaqueId operationId
  let preparedChecksum ← canonicalPreviousChecksum preparedChecksum
  let previousChecksum ← canonicalPreviousChecksum previousChecksum
  let result ← readCanonicalObject result
  let sequence ← canonicalSequence sequence
  let stateRevision ← canonicalPositiveUint64 stateRevision
  let storageState ← canonicalStorageState storageState
  some { contractVersion := version, expectedStorage, operationId, preparedChecksum, previousChecksum,
         result, sequence, stateRevision, storageState }

def normalizeDeltaFrame (version : Version) (value : JsValue) : Option DeltaFrame := do
  let type ← ownString value (js "type")
  if type = js "prepared" then (normalizePreparedDeltaFrame version value).map .prepared
  else if type = js "committed" then (normalizeCommittedDeltaFrame version value).map .committed
  else none

/-! ### Checkpoint frames -/

/-- How many operations a checkpoint holds: `operationCount` in version 2, `preparedCount` in 3. -/
def Version.countKey : Version → JsString
  | .v2 => js "operationCount"
  | .v3 => js "preparedCount"

def Version.operationType : Version → JsString
  | .v2 => js "checkpoint-operation"
  | .v3 => js "checkpoint-prepared"

structure CheckpointStart where
  contractVersion : Version
  baseHeadChecksum : Checksum
  generation : PositiveUint64
  operationCount : Count
  previousChecksum : Option Checksum
  sequence : CheckpointSequence
  stateRevision : Uint64
  storageCount : Count
deriving DecidableEq

structure CheckpointOperation where
  contractVersion : Version
  generation : PositiveUint64
  operation : Operation
  previousChecksum : Option Checksum
  sequence : CheckpointSequence
  /-- Version 3 keeps prepared operations only. -/
  projected : contractVersion = .v3 → operation.commit = none
deriving DecidableEq

/-- A storage with the operation that attached it, as version 3 keeps it. -/
structure StorageWrapper where
  currentAttachmentOriginOperationId : Option OpaqueId
  storage : StorageState
  attached : if storage.lifecycle = .attached then currentAttachmentOriginOperationId ≠ none
    else currentAttachmentOriginOperationId = none
deriving DecidableEq

/-- The storage of a checkpoint frame: bare in version 2, wrapped in version 3. -/
inductive StoredStorage where
  | bare (storage : StorageState)
  | wrapped (wrapper : StorageWrapper)
deriving DecidableEq

def StoredStorage.version : StoredStorage → Version
  | .bare _ => .v2
  | .wrapped _ => .v3

def StoredStorage.storage : StoredStorage → StorageState
  | .bare storage => storage
  | .wrapped wrapper => wrapper.storage

structure CheckpointStorage where
  generation : PositiveUint64
  previousChecksum : Option Checksum
  sequence : CheckpointSequence
  storage : StoredStorage
deriving DecidableEq

structure CheckpointEnd where
  contractVersion : Version
  generation : PositiveUint64
  operationCount : Count
  previousChecksum : Option Checksum
  sequence : CheckpointSequence
  stateChecksum : Checksum
  stateRevision : Uint64
  storageCount : Count
deriving DecidableEq

inductive CheckpointFrame where
  | start (frame : CheckpointStart)
  | operation (frame : CheckpointOperation)
  | storage (frame : CheckpointStorage)
  | finish (frame : CheckpointEnd)
deriving DecidableEq

namespace CheckpointFrame

def contractVersion : CheckpointFrame → Version
  | .start frame => frame.contractVersion
  | .operation frame => frame.contractVersion
  | .storage frame => frame.storage.version
  | .finish frame => frame.contractVersion

def sequence : CheckpointFrame → CheckpointSequence
  | .start frame => frame.sequence
  | .operation frame => frame.sequence
  | .storage frame => frame.sequence
  | .finish frame => frame.sequence

end CheckpointFrame

def checkpointStartKeys (version : Version) : List JsString :=
  [js "baseHeadChecksum", js "contractVersion", js "generation", version.countKey,
    js "previousChecksum", js "sequence", js "stateRevision", js "storageCount", js "type"]

def checkpointOperationKeys : List JsString :=
  [js "contractVersion", js "generation", js "operation", js "previousChecksum", js "sequence", js "type"]

def storageWrapperKeys : List JsString := [js "currentAttachmentOriginOperationId", js "storage"]

def checkpointStorageKeys : List JsString :=
  [js "contractVersion", js "generation", js "previousChecksum", js "sequence", js "storage", js "type"]

def checkpointEndKeys (version : Version) : List JsString :=
  [js "contractVersion", js "generation", version.countKey, js "previousChecksum", js "sequence",
    js "stateChecksum", js "stateRevision", js "storageCount", js "type"]

def CheckpointStart.json (frame : CheckpointStart) : JsValue :=
  record (checkpointStartKeys frame.contractVersion)
    [textJson frame.baseHeadChecksum, frame.contractVersion.json, uint64Json frame.generation,
      numberJson frame.operationCount, nullableJson textJson frame.previousChecksum,
      numberJson frame.sequence, uint64Json frame.stateRevision, numberJson frame.storageCount,
      .string (js "checkpoint-start")]

def CheckpointOperation.json (frame : CheckpointOperation) : JsValue :=
  record checkpointOperationKeys
    [frame.contractVersion.json, uint64Json frame.generation, frame.operation.json,
      nullableJson textJson frame.previousChecksum, numberJson frame.sequence,
      .string frame.contractVersion.operationType]

def StorageWrapper.json (wrapper : StorageWrapper) : JsValue :=
  record storageWrapperKeys
    [nullableJson textJson wrapper.currentAttachmentOriginOperationId, wrapper.storage.json]

def StoredStorage.json : StoredStorage → JsValue
  | .bare storage => storage.json
  | .wrapped wrapper => wrapper.json

def CheckpointStorage.json (frame : CheckpointStorage) : JsValue :=
  record checkpointStorageKeys
    [frame.storage.version.json, uint64Json frame.generation,
      nullableJson textJson frame.previousChecksum, numberJson frame.sequence, frame.storage.json,
      .string (js "checkpoint-storage")]

def CheckpointEnd.json (frame : CheckpointEnd) : JsValue :=
  record (checkpointEndKeys frame.contractVersion)
    [frame.contractVersion.json, uint64Json frame.generation, numberJson frame.operationCount,
      nullableJson textJson frame.previousChecksum, numberJson frame.sequence,
      textJson frame.stateChecksum, uint64Json frame.stateRevision, numberJson frame.storageCount,
      .string (js "checkpoint-end")]

def CheckpointFrame.json : CheckpointFrame → JsValue
  | .start frame => frame.json
  | .operation frame => frame.json
  | .storage frame => frame.json
  | .finish frame => frame.json

def normalizeCheckpointStartFrame (version : Version) (value : JsValue) : Option CheckpointStart := do
  let [baseHeadChecksum, contractVersion, generation, operationCount, previousChecksum, sequence,
    stateRevision, storageCount, type] ← exactDataFields value (checkpointStartKeys version) | none
  ensure (isVersion version contractVersion ∧ isText (js "checkpoint-start") type)
  let operationCount ← canonicalCount operationCount
  let storageCount ← canonicalCount storageCount
  -- the base head of a checkpoint is never null
  let baseHeadChecksum ← sha256Text baseHeadChecksum
  let generation ← canonicalPositiveUint64 generation
  let previousChecksum ← canonicalPreviousChecksum previousChecksum
  let sequence ← canonicalCheckpointSequence sequence
  let stateRevision ← canonicalUint64 stateRevision
  some { contractVersion := version, baseHeadChecksum, generation, operationCount, previousChecksum,
         sequence, stateRevision, storageCount }

def normalizeCheckpointOperationFrame (version : Version) (value : JsValue) :
    Option CheckpointOperation := do
  let [contractVersion, generation, operation, previousChecksum, sequence, type] ←
    exactDataFields value checkpointOperationKeys | none
  ensure (isVersion version contractVersion ∧ isText version.operationType type)
  let operation ← normalizeCheckpointOperationRecord operation
  let generation ← canonicalPositiveUint64 generation
  let previousChecksum ← canonicalPreviousChecksum previousChecksum
  let sequence ← canonicalCheckpointSequence sequence
  if projected : version = .v3 → operation.commit = none then
    some { contractVersion := version, generation, operation, previousChecksum, sequence, projected }
  else none

def normalizeCheckpointStorageWrapper (value : JsValue) : Option StorageWrapper := do
  let [origin, storage] ← exactDataFields value storageWrapperKeys | none
  let currentAttachmentOriginOperationId ← nullable canonicalOpaqueId origin
  let storage ← canonicalStorageState storage
  if attached : if storage.lifecycle = .attached then currentAttachmentOriginOperationId ≠ none
      else currentAttachmentOriginOperationId = none then
    some { currentAttachmentOriginOperationId, storage, attached }
  else none

def readStoredStorage (version : Version) (value : JsValue) : Option StoredStorage :=
  if version.retainCommittedOperations then (canonicalStorageState value).map .bare
  else (normalizeCheckpointStorageWrapper value).map .wrapped

def normalizeCheckpointStorageFrame (version : Version) (value : JsValue) : Option CheckpointStorage := do
  let [contractVersion, generation, previousChecksum, sequence, storage, type] ←
    exactDataFields value checkpointStorageKeys | none
  ensure (isVersion version contractVersion ∧ isText (js "checkpoint-storage") type)
  let generation ← canonicalPositiveUint64 generation
  let previousChecksum ← canonicalPreviousChecksum previousChecksum
  let sequence ← canonicalCheckpointSequence sequence
  let storage ← readStoredStorage version storage
  some { generation, previousChecksum, sequence, storage }

def normalizeCheckpointEndFrame (version : Version) (value : JsValue) : Option CheckpointEnd := do
  let [contractVersion, generation, operationCount, previousChecksum, sequence, stateChecksum,
    stateRevision, storageCount, type] ← exactDataFields value (checkpointEndKeys version) | none
  ensure (isVersion version contractVersion ∧ isText (js "checkpoint-end") type)
  let operationCount ← canonicalCount operationCount
  let storageCount ← canonicalCount storageCount
  let stateChecksum ← sha256Text stateChecksum
  let generation ← canonicalPositiveUint64 generation
  let previousChecksum ← canonicalPreviousChecksum previousChecksum
  let sequence ← canonicalCheckpointSequence sequence
  let stateRevision ← canonicalUint64 stateRevision
  some { contractVersion := version, generation, operationCount, previousChecksum, sequence,
         stateChecksum, stateRevision, storageCount }

def normalizeCheckpointFrame (version : Version) (value : JsValue) : Option CheckpointFrame := do
  let type ← ownString value (js "type")
  if type = js "checkpoint-start" then (normalizeCheckpointStartFrame version value).map .start
  else if type = version.operationType then
    (normalizeCheckpointOperationFrame version value).map .operation
  else if type = js "checkpoint-storage" then
    (normalizeCheckpointStorageFrame version value).map .storage
  else if type = js "checkpoint-end" then (normalizeCheckpointEndFrame version value).map .finish
  else none

end PortableCodex.ProviderState
