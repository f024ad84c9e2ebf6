import PortableCodex.ProviderState.Replay
import PortableCodex.ProviderState.Head

/-!
Checkpoints: how a generation state is written as frames and loaded from them.

`writeCheckpointFrames` writes the state as a start frame, its operations and its storages in the
order of their ids, and an end frame with a checksum over them. `parseCheckpointStream` loads the
frames again under a head, then runs the validator of the version: version 2 replays the whole
history, version 3 checks the pending operations and the attachment origins.
-/

namespace PortableCodex.ProviderState

open Js

/-! ### The arrays of a checkpoint -/

/-- `arraySort` by the id of each element. -/
def sortById {α : Type} (id : α → OpaqueId) (items : List α) : List α :=
  items.insertionSort fun a b => (id a).val ≤ (id b).val

structure CheckpointArrays where
  operations : List Operation
  storages : List StoredStorage

/-- A storage as the checkpoint of its version keeps it. -/
def storedStorage (state : GenerationState) (storageId : OpaqueId) (storage : StorageState) :
    Option StoredStorage :=
  match state.contractVersion with
  | .v2 => some (.bare storage)
  | .v3 =>
      let origin := (state.attachmentOrigins.get? storageId).getD none
      if attached : if storage.lifecycle = .attached then origin ≠ none else origin = none then
        some (.wrapped { currentAttachmentOriginOperationId := origin, storage, attached })
      else none

def checkpointArrays (state : GenerationState) : Option CheckpointArrays := do
  let operations := state.operations.values.filter fun operation =>
    state.contractVersion.retainCommittedOperations ∨ operation.commit = none
  let storages ← state.storages.entries.mapM fun entry => storedStorage state entry.1 entry.2
  some {
    operations := sortById (·.operationId) operations
    storages := sortById (·.storage.storageId) storages }

/-! ### The state checksum -/

/-- `format.checkpointStateDomain` -/
def Version.checkpointStateDomain : Version → Bytes
  | .v2 => domain "portable-codex/filesystem-image-provider-state/checkpoint-state/v2"
  | .v3 => domain "portable-codex/filesystem-image-provider-state/checkpoint-state/v3"

/-- A hash in progress: the bytes it was given. -/
abbrev StateHash := Bytes

def createCheckpointStateHash (version : Version) (stateRevision : Uint64) : StateHash :=
  version.checkpointStateDomain ++
    encodeUtf8 (canonicalString (record [js "stateRevision"] [uint64Json stateRevision]))

def updateCheckpointStateHash (hash : StateHash) (type : JsString) (value : JsValue) : StateHash :=
  hash ++ encodeUtf8 (type ++ [0]) ++ encodeUtf8 (canonicalString value)

def finishCheckpointStateHash (hash : StateHash) : Checksum := hexChecksum hash

/-- The type under which operations are hashed. -/
def Version.operationHashType : Version → JsString
  | .v2 => js "operation"
  | .v3 => js "prepared"

def hashOperation (version : Version) (hash : StateHash) (operation : Operation) : StateHash :=
  updateCheckpointStateHash hash version.operationHashType operation.json

def hashStorage (hash : StateHash) (storage : StoredStorage) : StateHash :=
  updateCheckpointStateHash hash (js "storage") storage.json

def checkpointStateChecksum (version : Version) (stateRevision : Uint64) (arrays : CheckpointArrays) :
    Checksum :=
  let operations := arrays.operations.foldl (hashOperation version)
    (createCheckpointStateHash version stateRevision)
  finishCheckpointStateHash (arrays.storages.foldl hashStorage operations)

/-! ### Writing -/

structure CheckpointWriter where
  bytes : Bytes
  previousChecksum : Checksum
  sequence : Nat

structure CheckpointResult where
  bytes : Bytes
  checkpointBytes : SafeSize
  checkpointChecksum : Checksum
  checkpointFrameCount : Count

/-- A frame but for its place in the stream. -/
abbrev CheckpointBody := Option Checksum → CheckpointSequence → Option CheckpointFrame

def appendCheckpointFrame (writer : CheckpointWriter) (body : CheckpointBody) :
    Option CheckpointWriter := do
  if place : 1 ≤ writer.sequence ∧ writer.sequence ≤ maxUint32 then
    let frame ← body (some writer.previousChecksum) ⟨writer.sequence, place⟩
    let encoded ← encodeCanonicalFrame frame
    ensure (writer.bytes.length + encoded.bytes.length ≤ maxSafeInteger)
    some {
      bytes := writer.bytes ++ encoded.bytes
      previousChecksum := encoded.checksum
      sequence := writer.sequence + 1 }
  else none

section Bodies

variable (version : Version) (generation : PositiveUint64)

def checkpointStartBody (baseHeadChecksum : Checksum) (stateRevision : Uint64)
    (operationCount storageCount : Count) : CheckpointBody := fun previousChecksum sequence =>
  some (.start { contractVersion := version, baseHeadChecksum, generation, operationCount,
                 previousChecksum, sequence, stateRevision, storageCount })

def checkpointOperationBody (operation : Operation) : CheckpointBody := fun previousChecksum sequence =>
  if projected : version = .v3 → operation.commit = none then
    some (.operation { contractVersion := version, generation, operation, previousChecksum, sequence,
                       projected })
  else none

def checkpointStorageBody (storage : StoredStorage) : CheckpointBody := fun previousChecksum sequence =>
  some (.storage { generation, previousChecksum, sequence, storage })

def checkpointEndBody (stateChecksum : Checksum) (stateRevision : Uint64)
    (operationCount storageCount : Count) : CheckpointBody := fun previousChecksum sequence =>
  some (.finish { contractVersion := version, generation, operationCount, previousChecksum, sequence,
                  stateChecksum, stateRevision, storageCount })

end Bodies

/-- The frames of a checkpoint in their order. -/
def checkpointBodies (state : GenerationState) (generation : PositiveUint64) (baseHeadChecksum : Checksum)
    (snapshot : CheckpointArrays) (operationCount storageCount : Count) : List CheckpointBody :=
  let version := state.contractVersion
  let stateChecksum := checkpointStateChecksum version state.stateRevision snapshot
  checkpointStartBody version generation baseHeadChecksum state.stateRevision operationCount storageCount ::
    (snapshot.operations.map (checkpointOperationBody version generation) ++
      (snapshot.storages.map (checkpointStorageBody generation) ++
        [checkpointEndBody version generation stateChecksum state.stateRevision operationCount
          storageCount]))

def writeCheckpointFrames (state : GenerationState) (generation : PositiveUint64)
    (baseHeadChecksum : Checksum) : Option CheckpointResult := do
  let snapshot ← checkpointArrays state
  if count : snapshot.operations.length + snapshot.storages.length + 2 ≤ maxUint32 then
    let operationCount : Count := ⟨snapshot.operations.length, by omega⟩
    let storageCount : Count := ⟨snapshot.storages.length, by omega⟩
    let bodies := checkpointBodies state generation baseHeadChecksum snapshot operationCount storageCount
    let writer ← bodies.foldlM appendCheckpointFrame
      { bytes := [], previousChecksum := baseHeadChecksum, sequence := 1 }
    ensure (writer.sequence - 1 = snapshot.operations.length + snapshot.storages.length + 2)
    if size : writer.bytes.length ≤ maxSafeInteger then
      some {
        bytes := writer.bytes
        checkpointBytes := ⟨writer.bytes.length, size⟩
        checkpointChecksum := writer.previousChecksum
        checkpointFrameCount := ⟨snapshot.operations.length + snapshot.storages.length + 2, count⟩ }
    else none
  else none

/-! ### Validating -/

/-- A prepare or a commit that a loaded operation records. -/
structure CheckpointEvent where
  operation : Operation
  revision : Nat
  committed : Bool

/-- The events of an operation in their order. -/
def operationEvents (operation : Operation) : List CheckpointEvent :=
  { operation, revision := operation.preparedStateRevision.val, committed := false } ::
    match operation.commit with
    | none => []
    | some commit => [{ operation, revision := commit.committedStateRevision.val, committed := true }]

/-- The events so far; their revisions are the ones already seen. -/
def collectEvent (stateRevision : Nat) (events : List CheckpointEvent) (event : CheckpointEvent) :
    Option (List CheckpointEvent) := do
  ensure (event.revision ≤ stateRevision ∧ event.revision ∉ events.map (·.revision))
  some (events ++ [event])

def collectOperation (stateRevision : Nat) (events : List CheckpointEvent) (operation : Operation) :
    Option (List CheckpointEvent) := do
  ensure (∀ commit ∈ operation.commit,
    operation.preparedStateRevision.val < commit.committedStateRevision.val)
  (operationEvents operation).foldlM (collectEvent stateRevision) events

def replayPrepared (replayed : GenerationState) (operation : Operation) : Option GenerationState := do
  ensure (replayed.operations.has operation.operationId = false ∧
    pendingOperationForStorage replayed operation.storageId = none ∧
    replayed.storages.get? operation.storageId = operation.storageStateBefore)
  ensure (assertPreparePrecondition operation.storageStateBefore operation.kind)
  some { replayed with
    operations := replayed.operations.set operation.operationId { operation with commit := none } }

def replayCommitted (replayed : GenerationState) (operation : Operation) : Option GenerationState := do
  let prepared ← replayed.operations.get? operation.operationId
  let commit ← operation.commit
  ensure (prepared.commit = none ∧ prepared.request = operation.request ∧
    prepared.kind = operation.kind ∧ prepared.storageId = operation.storageId ∧
    prepared.preparedChecksum = operation.preparedChecksum ∧
    prepared.preparedStateRevision = operation.preparedStateRevision ∧
    prepared.storageStateBefore = operation.storageStateBefore ∧
    replayed.storages.get? operation.storageId = operation.storageStateBefore ∧
    commit.expectedStorage = expectedStorageState operation.storageStateBefore ∧
    commit.storageState.storageId = operation.storageId)
  ensure (assertStorageTransition operation.storageStateBefore commit.storageState operation.kind)
  let origin ← committedAttachmentOrigin replayed operation commit.storageState
  some { replayed with
    operations := replayed.operations.set operation.operationId operation
    storages := replayed.storages.set operation.storageId commit.storageState
    attachmentOrigins := replayed.attachmentOrigins.set operation.storageId origin }

/-- `replayed.stateRevision` is not read by the replay and left out. -/
def replayEvent (replayed : GenerationState) (event : CheckpointEvent) : Option GenerationState :=
  if event.committed then replayCommitted replayed event.operation
  else replayPrepared replayed event.operation

/-- The replay of the sorted events, whose revisions count up from `index + 1`. -/
def replayEvents (index : Nat) (replayed : GenerationState) :
    List CheckpointEvent → Option GenerationState
  | [] => some replayed
  | event :: events => do
      ensure (event.revision = index + 1)
      let replayed ← replayEvent replayed event
      replayEvents (index + 1) replayed events

def sortEvents (events : List CheckpointEvent) : List CheckpointEvent :=
  events.insertionSort fun a b => a.revision ≤ b.revision

/-- The state with the attachment origins that its history gives. -/
def validateV2CheckpointState (state : GenerationState) : Option GenerationState := do
  let events ← state.operations.values.foldlM (collectOperation state.stateRevision.val) []
  ensure (events.length = state.stateRevision.val)
  let replayed ← replayEvents 0 (emptyGenerationState ⟨0, uint64_zero⟩ .v2) (sortEvents events)
  ensure (replayed.operations.size = state.operations.size ∧
    replayed.storages.size = state.storages.size)
  ensure (∀ entry ∈ state.operations.entries, replayed.operations.get? entry.1 = some entry.2)
  ensure (∀ entry ∈ state.storages.entries, replayed.storages.get? entry.1 = some entry.2)
  some { state with attachmentOrigins := replayed.attachmentOrigins }

/-- The revisions and the storages of the pending operations so far. -/
structure PendingSeen where
  revisions : List Nat
  storages : List OpaqueId

def collectPending (state : GenerationState) (seen : PendingSeen) (operation : Operation) :
    Option PendingSeen := do
  ensure (operation.commit = none)
  ensure (operation.preparedStateRevision.val ≤ state.stateRevision.val ∧
    operation.preparedStateRevision.val ∉ seen.revisions ∧ operation.storageId ∉ seen.storages ∧
    state.storages.get? operation.storageId = operation.storageStateBefore)
  ensure (assertPreparePrecondition operation.storageStateBefore operation.kind)
  some {
    revisions := operation.preparedStateRevision.val :: seen.revisions
    storages := operation.storageId :: seen.storages }

/-- `storage.lifecycle === "attached" ? origin !== null : origin === null`, where a missing origin is
not null. -/
def originMatches (storage : StorageState) (origin : Option (Option OpaqueId)) : Prop :=
  if storage.lifecycle = .attached then origin ≠ some none else origin = some none

instance (storage : StorageState) (origin : Option (Option OpaqueId)) :
    Decidable (originMatches storage origin) := by
  unfold originMatches
  infer_instance

def validateV3CheckpointState (state : GenerationState) : Option GenerationState := do
  ensure (state.attachmentOrigins.size = state.storages.size)
  let _ ← state.operations.values.foldlM (collectPending state) { revisions := [], storages := [] }
  ensure (∀ entry ∈ state.storages.entries,
    originMatches entry.2 (state.attachmentOrigins.get? entry.1))
  some state

def validateCheckpointState (state : GenerationState) : Option GenerationState :=
  match state.contractVersion with
  | .v2 => validateV2CheckpointState state
  | .v3 => validateV3CheckpointState state

/-! ### Loading -/

structure CheckpointReader where
  state : GenerationState
  hash : StateHash
  checksum : Option Checksum
  offset : Nat
  sequence : Nat

section Loading

variable (file : Bytes) (head : LedgerHead)

def readCheckpointFrame (reader : CheckpointReader) : Option (Envelope CheckpointFrame) :=
  readEnvelopeAt head.contractVersion file reader.offset head.checkpointBytes.val reader.sequence

/-- The reader behind a frame. -/
def CheckpointReader.after (reader : CheckpointReader) (envelope : Envelope CheckpointFrame)
    (state : GenerationState) (hash : StateHash) : CheckpointReader where
  state := state
  hash := hash
  checksum := some envelope.checksum
  offset := envelope.frameEnd
  sequence := reader.sequence + 1

/-- The state with a stored operation added. -/
def addOperation (state : GenerationState) (operation : Operation) : GenerationState :=
  { state with operations := state.operations.set operation.operationId operation }

def readCheckpointOperations : Nat → Option OpaqueId → CheckpointReader → Option CheckpointReader
  | 0, _, reader => some reader
  | count + 1, previousOperationId, reader => do
      let envelope ← readCheckpointFrame file head reader
      match envelope.frame with
      | .operation frame => do
          ensure (frame.generation.val = head.generation.val ∧ frame.previousChecksum = reader.checksum ∧
            (∀ previous ∈ previousOperationId, previous.val < frame.operation.operationId.val) ∧
            reader.state.operations.has frame.operation.operationId = false)
          readCheckpointOperations count (some frame.operation.operationId)
            (reader.after envelope (addOperation reader.state frame.operation)
              (hashOperation head.contractVersion reader.hash frame.operation))
      | _ => none

/-- The state with a stored storage added. -/
def addStorage (state : GenerationState) : StoredStorage → GenerationState
  | .bare storage => { state with storages := state.storages.set storage.storageId storage }
  | .wrapped wrapper =>
      { state with
        storages := state.storages.set wrapper.storage.storageId wrapper.storage
        attachmentOrigins := state.attachmentOrigins.set wrapper.storage.storageId
          wrapper.currentAttachmentOriginOperationId }

def readCheckpointStorages : Nat → Option OpaqueId → CheckpointReader → Option CheckpointReader
  | 0, _, reader => some reader
  | count + 1, previousStorageId, reader => do
      let envelope ← readCheckpointFrame file head reader
      match envelope.frame with
      | .storage frame => do
          let storageId := frame.storage.storage.storageId
          ensure (frame.generation.val = head.generation.val ∧ frame.previousChecksum = reader.checksum ∧
            (∀ previous ∈ previousStorageId, previous.val < storageId.val) ∧
            reader.state.storages.has storageId = false)
          readCheckpointStorages count (some storageId)
            (reader.after envelope (addStorage reader.state frame.storage)
              (hashStorage reader.hash frame.storage))
      | _ => none

def readCheckpointStart : Option (CheckpointStart × CheckpointReader) := do
  let reader : CheckpointReader := {
    state := emptyGenerationState head.checkpointStateRevision head.contractVersion
    hash := createCheckpointStateHash head.contractVersion head.checkpointStateRevision
    checksum := head.baseHeadChecksum
    offset := 0
    sequence := 1 }
  let envelope ← readCheckpointFrame file head reader
  match envelope.frame with
  | .start start => do
      ensure (start.generation.val = head.generation.val ∧
        start.stateRevision = head.checkpointStateRevision ∧
        some start.baseHeadChecksum = head.baseHeadChecksum ∧
        start.previousChecksum = reader.checksum ∧
        start.operationCount.val + start.storageCount.val + 2 = head.checkpointFrameCount.val)
      some (start, reader.after envelope reader.state reader.hash)
  | _ => none

def readCheckpointEnd (start : CheckpointStart) (reader : CheckpointReader) : Option Unit := do
  let envelope ← readCheckpointFrame file head reader
  match envelope.frame with
  | .finish finish =>
      ensure (finish.generation.val = head.generation.val ∧
        finish.stateRevision = head.checkpointStateRevision ∧
        finish.operationCount = start.operationCount ∧ finish.storageCount = start.storageCount ∧
        finish.previousChecksum = reader.checksum ∧
        finish.stateChecksum = finishCheckpointStateHash reader.hash ∧
        envelope.frameEnd = head.checkpointBytes.val ∧
        some envelope.checksum = head.checkpointChecksum ∧
        reader.sequence = head.checkpointFrameCount.val)
  | _ => none

def parseCheckpointStream : Option GenerationState := do
  let (start, reader) ← readCheckpointStart file head
  let reader ← readCheckpointOperations file head start.operationCount.val none reader
  let reader ← readCheckpointStorages file head start.storageCount.val none reader
  readCheckpointEnd file head start reader
  validateCheckpointState reader.state

end Loading

/-! ### Rotating -/

/-- The head `rotateGeneration` builds for a written checkpoint. -/
def rotatedHead (expectedHead : LedgerHead) (nextGeneration : Uint64) (checkpoint : CheckpointResult) :
    Option LedgerHead := do
  let anchorRevision ← incrementNonnegativeUint64 expectedHead.anchorRevision.val
  if bound : anchorRevision < 2 ^ 64 then
    ledgerHead {
      contractVersion := expectedHead.contractVersion
      anchorRevision := ⟨anchorRevision, bound⟩
      generation := nextGeneration
      stateRevision := expectedHead.stateRevision
      baseHeadChecksum := some (headChecksum expectedHead)
      checkpointStateRevision := expectedHead.stateRevision
      checkpointFrameCount := checkpoint.checkpointFrameCount
      checkpointChecksum := some checkpoint.checkpointChecksum
      checkpointBytes := checkpoint.checkpointBytes
      frameCount := ⟨0, Nat.zero_le _⟩
      lastChecksum := some checkpoint.checkpointChecksum
      ledgerBytes := ⟨0, Nat.zero_le _⟩ }
  else none

/-- The generation after a head's. -/
def nextGeneration (expectedHead : LedgerHead) : Option PositiveUint64 := do
  let generation ← incrementNonnegativeUint64 expectedHead.generation.val
  if bound : 0 < generation ∧ generation < 2 ^ 64 then some ⟨generation, bound⟩ else none

/-- What a rotation writes, and the head and the state it goes on with. -/
structure Rotation where
  checkpoint : CheckpointResult
  head : LedgerHead
  state : GenerationState

/-- `rotateGeneration` without its files and its anchor: the checkpoint it writes, the head it builds
and the state it loads back. -/
def rotation (expectedHead : LedgerHead) (state : GenerationState) : Option Rotation := do
  ensure (state.contractVersion = expectedHead.contractVersion)
  let generation ← nextGeneration expectedHead
  let checkpoint ← writeCheckpointFrames state generation (headChecksum expectedHead)
  let head ← rotatedHead expectedHead (revisionOf generation) checkpoint
  let loaded ← parseCheckpointStream checkpoint.bytes head
  let loadedSnapshot ← checkpointArrays loaded
  let expectedSnapshot ← checkpointArrays state
  ensure (checkpointStateChecksum head.contractVersion loaded.stateRevision loadedSnapshot =
    checkpointStateChecksum head.contractVersion state.stateRevision expectedSnapshot)
  some { checkpoint, head, state := loaded }

end PortableCodex.ProviderState
