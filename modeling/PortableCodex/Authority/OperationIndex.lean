import PortableCodex.HeadAnchor.HeadAnchor
import PortableCodex.ProviderState.Projection

/-!
The operation index of the PostgreSQL state authority: the head of one provider and anchor and its rows of
`filesystem_image_provider_operations`.

`compareAndAdvance` moves the head and the row of an operation together; `compareProjection` compares what a
provider has loaded with the rows. Adopted rows are left out: every row entered as a prepared operation.
-/

namespace PortableCodex.Authority

open Js ProviderState HeadAnchor

/-! ### Rows -/

/-- What `normalizeOperationRow` reads: the record, and the checksum of the frame that committed it. -/
structure OperationRow where
  record : Operation
  committedChecksum : Option Checksum
deriving DecidableEq

structure OperationIndex where
  head : LedgerHead
  operationIndexStateRevision : Uint64
  /-- The rows by `operation_id`. -/
  operations : JsMap OpaqueId OperationRow

def HeadEndsInOperationFrame (head : LedgerHead) : Prop :=
  head.generation.val = 0 ∨ 0 < head.frameCount.val

instance (head : LedgerHead) : Decidable (HeadEndsInOperationFrame head) := inferInstanceAs (Decidable (_ ∨ _))

/-- The checks on a committed row. -/
def CommitVisibleAtHead (committedChecksum : Option Checksum) (head : LedgerHead) (commit : Commit) : Prop :=
  commit.committedStateRevision.val ≤ head.stateRevision.val ∧
    (commit.committedStateRevision.val = head.stateRevision.val → HeadEndsInOperationFrame head →
      committedChecksum = head.lastChecksum)

instance (committedChecksum : Option Checksum) (head : LedgerHead) (commit : Commit) :
    Decidable (CommitVisibleAtHead committedChecksum head commit) := inferInstanceAs (Decidable (_ ∧ _))

/-- `assertOperationVisibleAtHead` -/
def VisibleAtHead (head : LedgerHead) (row : OperationRow) : Prop :=
  row.record.preparedStateRevision.val ≤ head.stateRevision.val ∧
    (row.record.preparedStateRevision.val = head.stateRevision.val → HeadEndsInOperationFrame head →
      some row.record.preparedChecksum = head.lastChecksum) ∧
    ∀ commit ∈ row.record.commit, CommitVisibleAtHead row.committedChecksum head commit

instance (head : LedgerHead) (row : OperationRow) : Decidable (VisibleAtHead head row) :=
  inferInstanceAs (Decidable (_ ∧ _ ∧ _))

/-! ### Advancing -/

inductive Transition where
  | appendPrepared (frameChecksum : Checksum) (record : Operation)
  | appendCommitted (frameChecksum : Checksum) (record : Operation)
  | rotate

/-- What `normalizeTransition` checks of a transition between two heads. -/
def Transition.Normal (expectedHead nextHead : LedgerHead) : Transition → Prop
  | .rotate => isPureRotation expectedHead nextHead
  | .appendPrepared frameChecksum record =>
      record.commit = none ∧ isNormalAppend expectedHead nextHead ∧ some frameChecksum = nextHead.lastChecksum ∧
        record.preparedStateRevision.val = nextHead.stateRevision.val ∧ record.preparedChecksum = frameChecksum
  | .appendCommitted frameChecksum record =>
      (∃ commit ∈ record.commit, commit.committedStateRevision.val = nextHead.stateRevision.val) ∧
        isNormalAppend expectedHead nextHead ∧ some frameChecksum = nextHead.lastChecksum

instance (expectedHead nextHead : LedgerHead) : (transition : Transition) →
    Decidable (transition.Normal expectedHead nextHead)
  | .rotate => inferInstanceAs (Decidable (isPureRotation _ _))
  | .appendPrepared _ _ => inferInstanceAs (Decidable (_ ∧ _ ∧ _ ∧ _ ∧ _))
  | .appendCommitted _ _ => inferInstanceAs (Decidable (_ ∧ _ ∧ _))

/-- The order of `READ_LATEST_COMMITTED_STORAGE_QUERY`: the last committed row first. -/
def LaterCommitted (a b : Commit × OperationRow) : Prop :=
  b.1.committedStateRevision.val < a.1.committedStateRevision.val ∨
    a.1.committedStateRevision.val = b.1.committedStateRevision.val ∧
      b.2.record.operationId.val ≤ a.2.record.operationId.val

instance : DecidableRel LaterCommitted := fun _ _ => inferInstanceAs (Decidable (_ ∨ _ ∧ _))

namespace OperationIndex

variable (index : OperationIndex)

/-- The rows that are committed to a storage, in the order of the query. -/
def committedRows (storageId : OpaqueId) : List (Commit × OperationRow) :=
  (index.operations.values.filterMap fun row =>
    if row.record.storageId = storageId then row.record.commit.map (·, row) else none).insertionSort LaterCommitted

/-- `readLatestCommittedStorageStateInTransaction` -/
def readLatestCommittedStorageState (storageId : OpaqueId) : Option (Option StorageState) :=
  match index.committedRows storageId with
  | [] => some none
  | (commit, row) :: _ => do
      ensure (VisibleAtHead index.head row)
      some (some commit.storageState)

/-- The state revision of an event has one row. -/
def Claimed (revision : Nat) : Prop :=
  ∃ row ∈ index.operations.values, row.record.preparedStateRevision.val = revision ∨
    ∃ commit ∈ row.record.commit, commit.committedStateRevision.val = revision

instance (revision : Nat) : Decidable (index.Claimed revision) := inferInstanceAs (Decidable (∃ row ∈ _, _))

/-- `insertPreparedInTransaction`: an operation, a prepared storage and an event revision have one row. -/
def insertPrepared (record : Operation) : Option (JsMap OpaqueId OperationRow) := do
  ensure (index.operations.get? record.operationId = none ∧
    (∀ row ∈ index.operations.values, row.record.commit = none → row.record.storageId ≠ record.storageId) ∧
    ¬ index.Claimed record.preparedStateRevision.val)
  some (index.operations.set record.operationId { record, committedChecksum := none })

/-- `updateCommittedInTransaction`: the row has to be the prepared one of the record in every column. -/
def updateCommitted (record : Operation) (frameChecksum : Checksum) : Option (JsMap OpaqueId OperationRow) := do
  let commit ← record.commit
  ensure (index.operations.get? record.operationId =
    some { record := { record with commit := none }, committedChecksum := none })
  ensure (record.preparedStateRevision.val < commit.committedStateRevision.val ∧
    ¬ index.Claimed commit.committedStateRevision.val)
  some (index.operations.set record.operationId { record, committedChecksum := some frameChecksum })

/-- The storage of an appended record has to be what the record was prepared on. -/
def requireStorageBefore (record : Operation) : Option Unit := do
  let currentStorageState ← index.readLatestCommittedStorageState record.storageId
  ensure (currentStorageState = record.storageStateBefore)

def advanceOperations : Transition → Option (JsMap OpaqueId OperationRow)
  | .rotate => some index.operations
  | .appendPrepared _ record => do
      index.requireStorageBefore record
      index.insertPrepared record
  | .appendCommitted frameChecksum record => do
      index.requireStorageBefore record
      index.updateCommitted record frameChecksum

/-- `compareAndAdvance` of the runtime authority: the index behind the transaction, or `none` when the head is another
one. A call that throws has no value. -/
def compareAndAdvance (expectedHead nextHead : LedgerHead) (transition : Transition) :
    Option (Option OperationIndex) := do
  ensure (transition.Normal expectedHead nextHead)
  if index.head ≠ expectedHead then some none
  else do
    ensure (expectedHead.contractVersion = .v3 ∧ nextHead.contractVersion = .v3)
    ensure (index.operationIndexStateRevision = expectedHead.stateRevision)
    let operations ← index.advanceOperations transition
    some (some { head := nextHead, operationIndexStateRevision := nextHead.stateRevision, operations })

/-! ### Comparing a projection -/

/-- `READ_ALL_PREPARED_OPERATIONS_QUERY` -/
def readAllPreparedOperations (limit : Nat) : List OperationRow :=
  (sortById (·.record.storageId)
    (index.operations.values.filter fun row => row.record.commit = none)).take limit

/-- `comparePreparedProjectionInTransaction`: the checksum and the count, or `none` when they are not the expected
ones. -/
def comparePreparedProjection (expectedCount : Nat) (expectedChecksum : Checksum) (structuralBound : Nat) :
    Option (Option (Checksum × Nat)) := do
  let rows := index.readAllPreparedOperations (structuralBound + 1)
  ensure (∀ row ∈ rows, VisibleAtHead index.head row)
  ensure (rows.length ≤ structuralBound)
  ensure ((rows.map (·.record.storageId)).IsChain fun previous next => previous.val < next.val)
  let checksum := countedProjectionChecksum preparedProjectionDomain expectedCount
    (rows.map (·.record.json))
  if rows.length ≠ expectedCount ∨ checksum ≠ expectedChecksum then some none
  else some (some (checksum, rows.length))

/-- `normalizeAttachmentOrigins`: the checksum of the origins, which go up in their storages. -/
def normalizeAttachmentOrigins (origins : List AttachmentOrigin) (maximumCount : Nat) : Option Checksum := do
  ensure (origins.length ≤ maximumCount)
  ensure ((origins.map (·.storageId)).IsChain fun previous next => previous.val < next.val)
  some (attachmentOriginsChecksum origins)

/-- `MAX_RUNTIME_ATTACHMENT_ORIGIN_BATCH_SIZE` -/
def maxRuntimeAttachmentOriginBatchSize : Nat := 65535

/-- `READ_ATTACHMENT_ORIGINS_QUERY` -/
def readAttachmentOrigins (operationIds : List OpaqueId) (limit : Nat) : List OperationRow :=
  (sortById (·.record.operationId)
    (index.operations.values.filter fun row => row.record.operationId ∈ operationIds)).take limit

/-- A row is the attachment that an origin names. -/
def MatchesOrigin (origin : AttachmentOrigin) (row : OperationRow) : Prop :=
  (row.record.kind = .attach ∨ row.record.kind = .restoreAttach) ∧ row.record.operationId = origin.operationId ∧
    row.record.storageId = origin.storageId ∧
    ∃ commit ∈ row.record.commit, commit.storageState.revision.val ≤ origin.currentStorageRevision.val ∧
      stableStorageProjectionChecksum commit.storageState = origin.stableStorageChecksum

instance (origin : AttachmentOrigin) (row : OperationRow) : Decidable (MatchesOrigin origin row) :=
  inferInstanceAs (Decidable (_ ∧ _ ∧ _ ∧ _))

/-- `batchByOperationId`: the last origin of an operation stays. -/
def batchByOperationId (batch : List AttachmentOrigin) : JsMap OpaqueId AttachmentOrigin :=
  batch.foldl (fun byId origin => byId.set origin.operationId origin) .empty

/-- One batch: how many rows it has found, and whether they are the ones of its origins. -/
def compareBatch (batch : List AttachmentOrigin) : Option (Nat × Bool) := do
  let operationIds := batch.map (·.operationId)
  let rows := index.readAttachmentOrigins operationIds (batch.length + 1)
  ensure (∀ row ∈ rows, VisibleAtHead index.head row)
  ensure (rows.length ≤ batch.length + 1)
  let found := operationIds.Nodup ∧
    (rows.map (·.record.operationId)).IsChain (fun previous next => previous.val < next.val) ∧
    (∀ row ∈ rows, ∃ origin ∈ (batchByOperationId batch).get? row.record.operationId, MatchesOrigin origin row) ∧
    rows.length = batch.length
  some (rows.length, found)

/-- The loop over the batches. It compares one batch at least. -/
def compareBatches (origins : List AttachmentOrigin) : Option (Nat × Bool) := do
  let (observed, matched) ← index.compareBatch (origins.take maxRuntimeAttachmentOriginBatchSize)
  let later := origins.drop maxRuntimeAttachmentOriginBatchSize
  if _ : later ≠ [] then do
    let (rest, others) ← compareBatches later
    some (observed + rest, matched && others)
  else some (observed, matched)
termination_by origins.length
decreasing_by
  have left : 0 < later.length := List.length_pos_iff.mpr ‹_›
  rw [List.length_drop] at *
  unfold maxRuntimeAttachmentOriginBatchSize at *
  omega

/-- `compareAttachmentOriginsInTransaction`: the rows are those of the origins. -/
def compareAttachmentOrigins (origins : List AttachmentOrigin) : Option Bool := do
  let (totalObserved, matched) ← index.compareBatches origins
  some (matched && totalObserved = origins.length)

/-- `compareProjection`: the receipt, or `none` when the projection is not that of the index. -/
def compareProjection (request : ProjectionRequest) : Option (Option Checksum) := do
  if index.head ≠ request.expectedHead then some none
  else do
    let structuralBound := index.head.checkpointFrameCount.val + index.head.frameCount.val
    let originsChecksum ← normalizeAttachmentOrigins request.attachmentOrigins structuralBound
    ensure (index.head.contractVersion = .v3)
    ensure (index.operationIndexStateRevision = request.expectedHead.stateRevision)
    ensure (request.preparedOperationCount ≤ structuralBound)
    let prepared ← index.comparePreparedProjection request.preparedOperationCount
      request.preparedProjectionChecksum structuralBound
    let sameOrigins ← index.compareAttachmentOrigins request.attachmentOrigins
    match prepared, sameOrigins with
    | some (preparedProjectionChecksum, preparedOperationCount), true =>
        let material : ReceiptMaterial := {
          attachmentOriginCount := request.attachmentOrigins.length
          attachmentOriginsChecksum := originsChecksum
          expectedHeadChecksum := headChecksum index.head
          preparedOperationCount
          preparedProjectionChecksum }
        some (some material.projectionChecksum)
    | _, _ => some none

end OperationIndex

end PortableCodex.Authority
