import PortableCodex.ProviderState.Values

/-!
The state records of the Podman writer supervisor: one file for each revision of a launch attempt.

A file is the canonical text of a record, or none that `parseRecord` accepts. Each operation on files can fail,
which `Io` says for one call; a failure after the link of a new record leaves the record. A call runs alone
under the lock of its attempt.
-/

namespace PortableCodex.PodmanState

open Js ProviderState

inductive ErrorCode where
  | conflict
  | invalid
  | ioFailed
deriving DecidableEq

/-! ### Records -/

inductive Status where
  | preparing
  | created
  | started
  | stopping
  | stopped
deriving DecidableEq

namespace Status

def text : Status → JsString
  | .preparing => js "preparing"
  | .created => js "created"
  | .started => js "started"
  | .stopping => js "stopping"
  | .stopped => js "stopped"

/-- `STATUS_REVISION` -/
def revision : Status → Nat
  | .preparing => 0
  | .created => 1
  | .started => 2
  | .stopping => 3
  | .stopped => 4

/-- `NEXT_STATUS` -/
def next : Status → Option Status
  | .preparing => some .created
  | .created => some .started
  | .started => some .stopping
  | .stopping => some .stopped
  | .stopped => none

def ofText (value : JsString) : Option Status :=
  [Status.preparing, .created, .started, .stopping, .stopped].find? fun status => status.text = value

end Status

/-- `isNextStatus` -/
def isNextStatus (status candidate : Status) : Bool := status.next = some candidate

/-- `CONTAINER_NAME_PATTERN` -/
def IsContainerName : JsString → Prop
  | [] => False
  | u :: rest => isContainerUnit u = true ∧ rest.length ≤ 127 ∧
      ∀ v ∈ rest, isContainerUnit v = true ∨ v = 95 ∨ v = 46 ∨ v = 45
where
  /-- `[a-z0-9]` -/
  isContainerUnit (u : UInt16) : Bool := isDigit u || (97 ≤ u.toNat && u.toNat ≤ 122)

instance : DecidablePred IsContainerName
  | [] => .isFalse id
  | _ :: _ => inferInstanceAs (Decidable (_ ∧ _ ∧ _))

/-- `CONTAINER_ID_PATTERN` -/
def IsContainerId (s : JsString) : Prop := 12 ≤ s.length ∧ s.length ≤ 64 ∧ ∀ u ∈ s, isLowerHex u = true

instance : DecidablePred IsContainerId := fun _ => inferInstanceAs (Decidable (_ ∧ _ ∧ _))

abbrev ContainerName := { s : JsString // IsContainerName s }

abbrev ContainerId := { s : JsString // IsContainerId s }

structure Fields where
  status : Status
  requestSha256 : Checksum
  containerName : ContainerName
  launchAttemptId : OpaqueId
  containerId : Option ContainerId
  processIncarnationId : Option OpaqueId
  proofId : Option OpaqueId
  stopOperationId : Option OpaqueId
  stopProofId : Option OpaqueId
  writerIncarnationId : Option OpaqueId
deriving DecidableEq

/-- The identifiers that a status has. -/
def Fields.Complete (fields : Fields) : Prop :=
  match fields.status with
  | .preparing => fields.containerId = none ∧ fields.processIncarnationId = none ∧ fields.proofId = none ∧
      fields.stopOperationId = none ∧ fields.stopProofId = none ∧ fields.writerIncarnationId = none
  | .created => fields.containerId ≠ none ∧ fields.processIncarnationId ≠ none ∧ fields.writerIncarnationId ≠ none ∧
      fields.proofId = none ∧ fields.stopOperationId = none ∧ fields.stopProofId = none
  | .started => fields.containerId ≠ none ∧ fields.processIncarnationId ≠ none ∧ fields.writerIncarnationId ≠ none ∧
      fields.proofId ≠ none ∧ fields.stopOperationId = none ∧ fields.stopProofId = none
  | .stopping => fields.containerId ≠ none ∧ fields.processIncarnationId ≠ none ∧ fields.writerIncarnationId ≠ none ∧
      fields.proofId ≠ none ∧ fields.stopOperationId ≠ none ∧ fields.stopProofId = none
  | .stopped => fields.containerId ≠ none ∧ fields.processIncarnationId ≠ none ∧ fields.writerIncarnationId ≠ none ∧
      fields.proofId ≠ none ∧ fields.stopOperationId ≠ none ∧ fields.stopProofId ≠ none

instance (fields : Fields) : Decidable fields.Complete := by
  unfold Fields.Complete
  cases fields.status <;> infer_instance

/-- A record, as `normalizeRecord` gives it. -/
abbrev Record := { fields : Fields // fields.Complete }

def Record.revision (record : Record) : Nat := record.val.status.revision

def recordKeys : List JsString :=
  [js "containerId", js "containerName", js "contractVersion", js "launchAttemptId", js "processIncarnationId",
    js "proofId", js "requestSha256", js "revision", js "status", js "stopOperationId", js "stopProofId",
    js "writerIncarnationId"]

def statusField : JsValue → Option Status
  | .string s => Status.ofText s
  | _ => none

/-- `normalizeRecord` -/
def normalizeRecord (value : JsValue) : Option Record := do
  let [containerId, containerName, contractVersion, launchAttemptId, processIncarnationId, proofId, requestSha256,
    revision, status, stopOperationId, stopProofId, writerIncarnationId] ← exactDataFields value recordKeys | none
  ensure (safeInteger contractVersion = some 1)
  let status ← statusField status
  ensure (safeInteger revision = some status.revision)
  let requestSha256 ← sha256Text requestSha256
  let containerName ← checkedText IsContainerName containerName
  let launchAttemptId ← canonicalOpaqueId launchAttemptId
  let processIncarnationId ← nullable canonicalOpaqueId processIncarnationId
  let proofId ← nullable canonicalOpaqueId proofId
  let stopOperationId ← nullable canonicalOpaqueId stopOperationId
  let stopProofId ← nullable canonicalOpaqueId stopProofId
  let writerIncarnationId ← nullable canonicalOpaqueId writerIncarnationId
  let containerId ← nullable (checkedText IsContainerId) containerId
  let fields : Fields := {
    status, requestSha256, containerName, launchAttemptId, containerId, processIncarnationId, proofId,
    stopOperationId, stopProofId, writerIncarnationId }
  if complete : fields.Complete then some ⟨fields, complete⟩ else none

/-! ### Reading -/

inductive File where
  | record (record : Record)
  | other
deriving DecidableEq

/-- The visible files of an attempt, by revision. -/
abbrev Chain := Nat → Option File

/-- `parseRecord` -/
def parseRecord (launchAttemptId : OpaqueId) (revision : Nat) : File → Option Record
  | .record record =>
      if record.val.launchAttemptId = launchAttemptId ∧ record.revision = revision then some record else none
  | .other => none

/-- What `readCurrent` compares of two records. -/
def follows (current record : Record) : Bool :=
  record.val.requestSha256 = current.val.requestSha256 ∧ record.val.containerName = current.val.containerName ∧
    record.val.launchAttemptId = current.val.launchAttemptId ∧
    isNextStatus current.val.status record.val.status = true ∧
    (record.val.status ≠ .created → record.val.containerId = current.val.containerId ∧
      record.val.processIncarnationId = current.val.processIncarnationId ∧
      record.val.writerIncarnationId = current.val.writerIncarnationId) ∧
    (record.val.status = .stopping → record.val.proofId = current.val.proofId) ∧
    (record.val.status = .stopped → record.val.proofId = current.val.proofId ∧
      record.val.stopOperationId = current.val.stopOperationId)

/-- The loop of `readCurrent` from a revision on. -/
def readFiles (launchAttemptId : OpaqueId) :
    Nat → Option Record → Bool → List (Option File) → Except ErrorCode (Option Record)
  | _, current, _, [] => .ok current
  | revision, current, _, none :: files => readFiles launchAttemptId (revision + 1) current true files
  | revision, current, gap, some file :: files =>
      if gap = true ∨ 4 < revision then .error .invalid
      else
        match parseRecord launchAttemptId revision file with
        | none => .error .invalid
        | some record =>
            if current.all (follows · record) then readFiles launchAttemptId (revision + 1) (some record) gap files
            else .error .invalid

/-- `readCurrent`, where no operation fails. -/
def readCurrent (chain : Chain) (launchAttemptId : OpaqueId) : Except ErrorCode (Option Record) :=
  readFiles launchAttemptId 0 none false ((List.range 6).map chain)

/-! ### Transitions -/

/-- A request whose record is of the next revision and status. -/
structure TransitionRequest where
  expectedRevision : Nat
  expectedStatus : Status
  record : Record
  revision : record.revision = expectedRevision + 1
  status : isNextStatus expectedStatus record.val.status = true

/-- The checks of the argument of `transition`. -/
def normalizeTransition (value : JsValue) : Option TransitionRequest := do
  let [expectedRevision, expectedStatus, record] ← exactDataFields value
    [js "expectedRevision", js "expectedStatus", js "record"] | none
  let expectedRevision ← safeInteger expectedRevision
  ensure (expectedRevision < 4)
  let expectedStatus ← statusField expectedStatus
  ensure (expectedStatus.next ≠ none)
  let record ← normalizeRecord record
  if revision : record.revision = expectedRevision + 1 then
    if status : isNextStatus expectedStatus record.val.status = true then
      some { expectedRevision, expectedStatus, record, revision, status }
    else none
  else none

/-- How far `writeExclusive` gets. -/
inductive Write where
  | fails
  | publishes
  | failsAfterwards

/-- Which operations of a call succeed. -/
structure Io where
  opens : Bool
  reads : Bool
  write : Write
  rereads : Bool
  /-- `assertStateOwnerMarkerHeld` passes, or there is no marker. -/
  markerHeld : Bool
  closes : Bool

/-- `writeExclusive`: whether the record was created. -/
def writeExclusive (write : Write) (chain : Chain) (record : Record) : Except ErrorCode Bool × Chain :=
  match write with
  | .fails => (.error .ioFailed, chain)
  | .publishes =>
      if chain record.revision ≠ none then (.ok false, chain)
      else (.ok true, Function.update chain record.revision (some (.record record)))
  | .failsAfterwards =>
      if chain record.revision ≠ none then (.error .ioFailed, chain)
      else (.error .ioFailed, Function.update chain record.revision (some (.record record)))

/-- What `transition` does once it has the current record. -/
def advance (io : Io) (chain : Chain) (input : TransitionRequest) : Except ErrorCode Record × Chain :=
  match writeExclusive io.write chain input.record with
  | (.error code, after) => (.error code, after)
  | (.ok created, after) =>
      if io.rereads then
        match readCurrent after input.record.val.launchAttemptId with
        | .error code => (.error code, after)
        | .ok none => (.error .ioFailed, after)
        | .ok (some current) =>
            if !created ∧ current ≠ input.record then (.error .conflict, after)
            else if current = input.record then (.ok current, after)
            else (.error .conflict, after)
      else (.error .ioFailed, after)

/-- The current record is the one that the request expects. -/
def TransitionRequest.expects (input : TransitionRequest) (current : Record) : Bool :=
  current.revision = input.expectedRevision ∧ current.val.status = input.expectedStatus

/-- The body of `transition` in the held directory. -/
def inDirectory (io : Io) (chain : Chain) (input : TransitionRequest) : Except ErrorCode Record × Chain :=
  if io.reads then
    match readCurrent chain input.record.val.launchAttemptId with
    | .error code => (.error code, chain)
    | .ok none => (.error .conflict, chain)
    | .ok (some current) =>
        if input.expects current then advance io chain input
        else if current = input.record then (.ok current, chain)
        else (.error .conflict, chain)
  else (.error .ioFailed, chain)

/-- How `withStateDirectory` ends behind its callback: a marker that is not held replaces the error of the callback, a
close that fails does not. -/
def Io.ends (io : Io) (result : Except ErrorCode Record) : Except ErrorCode Record :=
  if io.markerHeld then
    match result with
    | .error code => .error code
    | .ok record => if io.closes then .ok record else .error .ioFailed
  else .error .ioFailed

/-- `transition`, with the chain after it. -/
def transition (io : Io) (chain : Chain) (input : TransitionRequest) : Except ErrorCode Record × Chain :=
  if io.opens then
    let (result, after) := inDirectory io chain input
    (io.ends result, after)
  else (.error .ioFailed, chain)

end PortableCodex.PodmanState
