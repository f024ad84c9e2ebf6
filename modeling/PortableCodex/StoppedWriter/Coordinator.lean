import PortableCodex.Contracts.SessionStorage
import PortableCodex.Js.Map

/-!
The stopped-writer capability coordinator.

A coordinator registers the writers of a process, stops each at most once and gives its one snapshot
to the holder of a capability. Its methods are functions on `Coordinator`. The two asynchronous ones
are cut where they call back: `stopAndIssueCapability` and `consumeCapability` end with the call of
`stopWriter` or `runSnapshot`, and `stopSettles` and `snapshotSettles` go on from what the callback came
to. `perform` is one call or one such continuation, with the events it makes.

Handles and the records behind them are compared by identity; both have the same address here.
-/

namespace PortableCodex.StoppedWriter

open Js ProviderState Contracts

/-! ### Errors -/

inductive ErrorCode where
  | invalidStoppedWriterRequest
  | snapshotOutcomeUncertain
  | stoppedWriterCapabilityRejected
  | writerStateConflict
  | writerStopOutcomeUncertain
deriving DecidableEq

/-- `ERROR_MESSAGES` -/
def ErrorCode.message : ErrorCode → JsString
  | .invalidStoppedWriterRequest => js "Stopped-writer request is invalid"
  | .snapshotOutcomeUncertain => js "Snapshot callback outcome is uncertain"
  | .stoppedWriterCapabilityRejected => js "Stopped-writer capability was rejected"
  | .writerStateConflict => js "Writer incarnation state conflicts with the request"
  | .writerStopOutcomeUncertain => js "Writer stop outcome is uncertain"

def ensureOr (condition : Prop) [Decidable condition] (code : ErrorCode) : Except ErrorCode Unit :=
  if condition then .ok () else .error code

/-- A value, or the failure of an invalid request. -/
def valid {α : Type} : Option α → Except ErrorCode α
  | some a => .ok a
  | none => .error .invalidStoppedWriterRequest

/-! ### Arguments -/

/-- The address of an opaque handle. -/
abbrev Handle := Nat

/-- A function that was passed as a callback. -/
structure Callback where
  isProxy : Bool
  isGeneratorFunction : Bool
deriving DecidableEq

/-- The value of an option: plain data, a handle, a function, or anything else. -/
inductive Argument where
  | data (value : JsValue)
  | handle (handle : Handle)
  | function (callback : Callback)
  | other

def assertOpaqueId : Argument → Except ErrorCode OpaqueId
  | .data value => valid (canonicalOpaqueId value)
  | _ => .error .invalidStoppedWriterRequest

def assertTrustedCallback : Argument → Except ErrorCode Callback
  | .function callback => do
      ensureOr (callback.isProxy = false ∧ callback.isGeneratorFunction = false) .invalidStoppedWriterRequest
      .ok callback
  | _ => .error .invalidStoppedWriterRequest

structure WriterFence where
  fencingEpoch : PositiveUint64
  holderId : OpaqueId
  leaseId : OpaqueId
  sessionId : Uuid
deriving DecidableEq

structure Binding where
  attachment : SessionAttachment
  writerFence : WriterFence
deriving DecidableEq

def normalizeBinding : Argument → Argument → Except ErrorCode Binding
  | .data attachmentValue, .data leaseValue => do
      let attachment ← valid (assertSessionAttachment attachmentValue)
      let lease ← valid (assertLeaseGrant leaseValue)
      ensureOr (attachment.sessionId = lease.sessionId ∧ attachment.leaseId = lease.leaseId ∧
        attachment.holderId = lease.holderId ∧ attachment.fencingEpoch = lease.fencingEpoch)
        .invalidStoppedWriterRequest
      .ok {
        attachment
        writerFence := {
          fencingEpoch := lease.fencingEpoch
          holderId := lease.holderId
          leaseId := lease.leaseId
          sessionId := lease.sessionId } }
  | _, _ => .error .invalidStoppedWriterRequest

/-- The options of a method; none when they are not an object with exactly its keys. -/
abbrev Options (Fields : Type) := Option Fields

structure LaunchFields where
  attachment : Argument
  canonicalLease : Argument

structure RegisterFields where
  attachment : Argument
  canonicalLease : Argument
  processIncarnationId : Argument
  stopWriter : Argument
  writerIncarnationId : Argument

structure StopFields where
  processIncarnationId : Argument
  stopOperationId : Argument
  writer : Argument
  writerIncarnationId : Argument

structure ConsumeFields where
  attachment : Argument
  canonicalLease : Argument
  capability : Argument
  processIncarnationId : Argument
  runSnapshot : Argument
  stopOperationId : Argument
  writer : Argument
  writerIncarnationId : Argument

/-- The options of `revokeWriter` and `retireWriter`. -/
structure WriterFields where
  processIncarnationId : Argument
  writer : Argument
  writerIncarnationId : Argument

/-! ### What a callback came to -/

/-- A value that an awaited callback yields. -/
inductive Yielded where
  | stopConfirmed
  | proxy
  | generatorObject
  /-- An object with a `then` that is a function or cannot be read safely. -/
  | thenable
  | plain (value : JsValue)

/-- The callback throws, returns a value that must not be awaited, rejects, or yields. -/
inductive Settled where
  | threw
  | unsafeAwait
  | rejected
  | yielded (value : Yielded)

/-- `isProxyValue`, `isGeneratorObjectValue` and `isSafeAsyncReturnValue` of a result. -/
def Yielded.isSafe : Yielded → Bool
  | .stopConfirmed => true
  | .plain _ => true
  | _ => false

/-! ### Records -/

inductive WriterState where
  | running
  | stopping
  | stopUncertain
  | issued
  | consuming
  | snapshotUncertain
  | consumed
  | revoked
  | retired
deriving DecidableEq

inductive CapabilityState where
  | issued
  | consuming
  | consumed
  | revoked
deriving DecidableEq

structure SlotKey where
  sessionId : Uuid
  backendId : OpaqueId
  storageId : OpaqueId
deriving DecidableEq

def slotKey (attachment : SessionAttachment) : SlotKey :=
  { sessionId := attachment.sessionId, backendId := attachment.backendId, storageId := attachment.storageId }

structure Slot where
  current : Option Handle
  lastFencingEpoch : Option PositiveUint64

structure WriterRecord where
  attachment : SessionAttachment
  capabilityRecord : Option Handle
  processIncarnationId : OpaqueId
  revocationRequested : Bool
  state : WriterState
  stopEstablished : Bool
  stopOperationId : Option OpaqueId
  writerFence : WriterFence
  writerIncarnationId : OpaqueId

/-- The slot a record was registered in. -/
def WriterRecord.slot (record : WriterRecord) : SlotKey := slotKey record.attachment

structure CapabilityRecord where
  state : CapabilityState
  writerRecord : Handle

structure Coordinator where
  activeWriters : Nat
  activeWritersBySession : JsMap Uuid Nat
  disposed : Bool
  slots : JsMap SlotKey Slot
  /-- The keys of `#writers`. -/
  writers : List Handle
  /-- The keys of `#capabilities`. -/
  capabilities : List Handle
  /-- The records behind the handles, also of those that the maps have forgotten. -/
  writerRecords : JsMap Handle WriterRecord
  capabilityRecords : JsMap Handle CapabilityRecord
  /-- The address of the next handle. -/
  nextHandle : Handle

def Coordinator.initial : Coordinator where
  activeWriters := 0
  activeWritersBySession := .empty
  disposed := false
  slots := .empty
  writers := []
  capabilities := []
  writerRecords := .empty
  capabilityRecords := .empty
  nextHandle := 0

namespace Coordinator

variable (c : Coordinator)

/-! ### Methods -/

def activeForSession (sessionId : Uuid) : Nat := (c.activeWritersBySession.get? sessionId).getD 0

/-- `compareFencingEpochs(epoch, slot.lastFencingEpoch) > 0`, where the slot has a last epoch. -/
def EpochFollows (epoch : PositiveUint64) (slot : Option Slot) : Prop :=
  ∀ s ∈ slot, ∀ last ∈ s.lastFencingEpoch, last.val < epoch.val

/-- `slot.current === null`, where there is a slot. -/
def Vacant (slot : Option Slot) : Prop := ∀ s ∈ slot, s.current = none

instance (epoch : PositiveUint64) (slot : Option Slot) : Decidable (EpochFollows epoch slot) :=
  inferInstanceAs (Decidable (∀ s ∈ slot, _))

instance (slot : Option Slot) : Decidable (Vacant slot) := inferInstanceAs (Decidable (∀ s ∈ slot, _))

def assertWriterLaunchAvailable (options : Options LaunchFields) : Except ErrorCode Unit := do
  ensureOr (c.disposed = false) .writerStateConflict
  let fields ← valid options
  let binding ← normalizeBinding fields.attachment fields.canonicalLease
  ensureOr (c.activeForSession binding.attachment.sessionId = 0) .writerStateConflict
  let slot := c.slots.get? (slotKey binding.attachment)
  ensureOr (Vacant slot) .writerStateConflict
  ensureOr (EpochFollows binding.writerFence.fencingEpoch slot) .writerStateConflict

/-- The coordinator after a record was registered under the next handle. -/
def addWriter (record : WriterRecord) : Coordinator :=
  let sessionId := record.attachment.sessionId
  let existing := c.slots.get? record.slot
  { c with
    activeWriters := c.activeWriters + 1
    activeWritersBySession := c.activeWritersBySession.set sessionId (c.activeForSession sessionId + 1)
    slots := c.slots.set record.slot
      { current := some c.nextHandle, lastFencingEpoch := existing.bind (·.lastFencingEpoch) }
    writers := c.nextHandle :: c.writers
    writerRecords := c.writerRecords.set c.nextHandle record
    nextHandle := c.nextHandle + 1 }

def registerWriter (options : Options RegisterFields) : Except ErrorCode (Handle × Coordinator) := do
  ensureOr (c.disposed = false) .writerStateConflict
  let fields ← valid options
  let processIncarnationId ← assertOpaqueId fields.processIncarnationId
  let writerIncarnationId ← assertOpaqueId fields.writerIncarnationId
  let _ ← assertTrustedCallback fields.stopWriter
  let binding ← normalizeBinding fields.attachment fields.canonicalLease
  ensureOr (c.activeForSession binding.attachment.sessionId = 0) .writerStateConflict
  let existing := c.slots.get? (slotKey binding.attachment)
  ensureOr (EpochFollows binding.writerFence.fencingEpoch existing) .writerStateConflict
  ensureOr (Vacant existing) .writerStateConflict
  .ok (c.nextHandle, c.addWriter {
    attachment := binding.attachment
    capabilityRecord := none
    processIncarnationId
    revocationRequested := false
    state := .running
    stopEstablished := false
    stopOperationId := none
    writerFence := binding.writerFence
    writerIncarnationId })

/-- The record of a handle, if it is one of a writer. -/
def writerOf : Argument → Option (Handle × WriterRecord)
  | .handle handle =>
      if handle ∈ c.writers then (c.writerRecords.get? handle).map fun record => (handle, record) else none
  | _ => none

def authenticateWriter (writer processValue writerValue : Argument) :
    Except ErrorCode (Handle × WriterRecord) :=
  match c.writerOf writer, assertOpaqueId processValue, assertOpaqueId writerValue with
  | some (handle, record), .ok processIncarnationId, .ok writerIncarnationId => do
      ensureOr (processIncarnationId = record.processIncarnationId ∧
        writerIncarnationId = record.writerIncarnationId) .writerStateConflict
      .ok (handle, record)
  | _, _, _ => .error .writerStateConflict

def setWriter (handle : Handle) (record : WriterRecord) : Coordinator :=
  { c with writerRecords := c.writerRecords.set handle record }

def setCapability (handle : Handle) (record : CapabilityRecord) : Coordinator :=
  { c with capabilityRecords := c.capabilityRecords.set handle record }

/-- `stopAndIssueCapability` until it calls `stopWriter` of the returned record. -/
def stopAndIssueCapability (options : Options StopFields) : Except ErrorCode (Handle × Coordinator) := do
  ensureOr (c.disposed = false) .writerStateConflict
  let fields ← valid options
  let (handle, record) ← c.authenticateWriter fields.writer fields.processIncarnationId
    fields.writerIncarnationId
  let stopOperationId ← assertOpaqueId fields.stopOperationId
  ensureOr (record.state = .running) .writerStateConflict
  .ok (handle, c.setWriter handle { record with state := .stopping, stopOperationId := some stopOperationId })

/-- The coordinator after a capability was issued for a record under the next handle. -/
def issue (handle : Handle) (record : WriterRecord) : Coordinator :=
  { c with
    writerRecords := c.writerRecords.set handle
      { record with capabilityRecord := some c.nextHandle, state := .issued }
    capabilityRecords := c.capabilityRecords.set c.nextHandle { state := .issued, writerRecord := handle }
    capabilities := c.nextHandle :: c.capabilities
    nextHandle := c.nextHandle + 1 }

/-- The rest of `stopAndIssueCapability`. -/
def stopSettles (handle : Handle) (record : WriterRecord) : Settled → Coordinator × Except ErrorCode Handle
  | .yielded .stopConfirmed =>
      let established := { record with stopEstablished := true }
      if record.state = .stopping then (c.issue handle established, .ok c.nextHandle)
      else (c.setWriter handle established, .error .writerStateConflict)
  | _ =>
      let state := if record.state = .stopping then .stopUncertain else record.state
      (c.setWriter handle { record with state, stopEstablished := false }, .error .writerStopOutcomeUncertain)

/-- The record of a handle, if it is one of a capability. -/
def capabilityOf : Argument → Option (Handle × CapabilityRecord)
  | .handle handle =>
      if handle ∈ c.capabilities then
        (c.capabilityRecords.get? handle).map fun record => (handle, record)
      else none
  | _ => none

/-- The checks of `consumeCapability` on the options and the record; each failure rejects. -/
def assertConsumable (fields : ConsumeFields) (handle : Handle) (record : WriterRecord) :
    Except ErrorCode Unit := do
  ensureOr ((c.writerOf fields.writer).map Prod.fst = some handle) .stoppedWriterCapabilityRejected
  let processIncarnationId ← assertOpaqueId fields.processIncarnationId
  let writerIncarnationId ← assertOpaqueId fields.writerIncarnationId
  let stopOperationId ← assertOpaqueId fields.stopOperationId
  ensureOr (processIncarnationId = record.processIncarnationId ∧
    writerIncarnationId = record.writerIncarnationId ∧ some stopOperationId = record.stopOperationId)
    .stoppedWriterCapabilityRejected
  let _ ← assertTrustedCallback fields.runSnapshot
  let presented ← normalizeBinding fields.attachment fields.canonicalLease
  ensureOr (presented.attachment = record.attachment ∧ presented.writerFence = record.writerFence)
    .stoppedWriterCapabilityRejected
  ensureOr (record.state = .issued) .stoppedWriterCapabilityRejected

/-- Both records of a capability in a new state. -/
def setBoth (capability : Handle) (capabilityState : CapabilityState) (handle : Handle)
    (record : WriterRecord) (state : WriterState) : Coordinator :=
  { c with
    writerRecords := c.writerRecords.set handle { record with state }
    capabilityRecords := c.capabilityRecords.set capability
      { state := capabilityState, writerRecord := handle } }

/-- How far `consumeCapability` comes: it fails at once, it fails and revokes the capability that a writer
was issued, or it calls `runSnapshot` under that capability. -/
inductive Consumption where
  | refused (code : ErrorCode)
  | rejected (handle : Handle)
  | running (capability handle : Handle)

/-- `consumeCapability` until it calls `runSnapshot`. -/
def consumeCapability (options : Options ConsumeFields) : Coordinator × Consumption :=
  if c.disposed then (c, .refused .stoppedWriterCapabilityRejected)
  else
    match options with
    | none => (c, .refused .invalidStoppedWriterRequest)
    | some fields =>
        match c.capabilityOf fields.capability with
        | some (capability, { state := .issued, writerRecord := handle }) =>
            match c.writerRecords.get? handle with
            | none => (c, .refused .stoppedWriterCapabilityRejected)
            | some record =>
                match c.assertConsumable fields handle record with
                | .ok () => (c.setBoth capability .consuming handle record .consuming, .running capability handle)
                | .error _ => (c.setBoth capability .revoked handle record .revoked, .rejected handle)
        | _ => (c, .refused .stoppedWriterCapabilityRejected)

/-- The rest of `consumeCapability`. -/
def snapshotSettles (capability handle : Handle) (record : WriterRecord) :
    Settled → Coordinator × Except ErrorCode Yielded
  | .yielded value =>
      if record.revocationRequested ∨ value.isSafe = false then
        (c.setBoth capability .consumed handle record .snapshotUncertain, .error .snapshotOutcomeUncertain)
      else (c.setBoth capability .consumed handle record .consumed, .ok value)
  | _ => (c.setBoth capability .consumed handle record .snapshotUncertain, .error .snapshotOutcomeUncertain)

/-- The states in which `revokeWriter` revokes at once. -/
def revocableStates : List WriterState := [.running, .stopping, .issued, .stopUncertain]

/-- The coordinator after a record was revoked, and its capability if it is still issued. -/
def revoke (handle : Handle) (record : WriterRecord) : Coordinator :=
  let revoked := c.setWriter handle { record with state := .revoked }
  match record.capabilityRecord with
  | none => revoked
  | some capability =>
      match c.capabilityRecords.get? capability with
      | some { state := .issued, writerRecord } => revoked.setCapability capability { state := .revoked, writerRecord }
      | _ => revoked

def revokeWriter (options : Options WriterFields) : Except ErrorCode (Handle × Coordinator) := do
  ensureOr (c.disposed = false) .writerStateConflict
  let fields ← valid options
  let (handle, record) ← c.authenticateWriter fields.writer fields.processIncarnationId
    fields.writerIncarnationId
  if record.state = .consuming then .ok (handle, c.setWriter handle { record with revocationRequested := true })
  else do
    ensureOr (record.state ∈ revocableStates) .writerStateConflict
    .ok (handle, c.revoke handle record)

/-- The coordinator after a record has left its slot, one of so many active ones of its session. -/
def removeWriter (handle : Handle) (record : WriterRecord) (activeForSession : Nat) : Coordinator :=
  let sessionId := record.attachment.sessionId
  { c with
    activeWriters := c.activeWriters - 1
    activeWritersBySession :=
      if activeForSession = 1 then c.activeWritersBySession.delete sessionId
      else c.activeWritersBySession.set sessionId (activeForSession - 1)
    slots := c.slots.set record.slot
      { current := none, lastFencingEpoch := some record.writerFence.fencingEpoch }
    writerRecords := c.writerRecords.set handle { record with state := .retired } }

def retireWriter (options : Options WriterFields) : Except ErrorCode (Handle × Coordinator) := do
  ensureOr (c.disposed = false) .writerStateConflict
  let fields ← valid options
  let (handle, record) ← c.authenticateWriter fields.writer fields.processIncarnationId
    fields.writerIncarnationId
  ensureOr (record.state = .consumed ∨ record.state = .revoked ∧ record.stopEstablished = true)
    .writerStateConflict
  ensureOr ((c.slots.get? record.slot).bind (·.current) = some handle) .writerStateConflict
  let activeForSession := c.activeForSession record.attachment.sessionId
  ensureOr (0 < activeForSession) .writerStateConflict
  .ok (handle, c.removeWriter handle record activeForSession)

def dispose (argumentCount : Nat) : Except ErrorCode Coordinator := do
  ensureOr (c.disposed = false) .writerStateConflict
  ensureOr (argumentCount = 0) .invalidStoppedWriterRequest
  ensureOr (c.activeWriters = 0) .writerStateConflict
  .ok { c with
    disposed := true
    activeWritersBySession := .empty
    capabilities := []
    slots := .empty
    writers := [] }

end Coordinator

/-! ### Calls -/

/-- A coordinator with the callbacks that have not settled: the writers being stopped and the
capabilities whose snapshots are taken. -/
structure World where
  coordinator : Coordinator
  stops : List Handle
  snapshots : List Handle

/-- A call of a method, or the settling of a callback. -/
inductive Call where
  | assertWriterLaunchAvailable (options : Options LaunchFields)
  | registerWriter (options : Options RegisterFields)
  | stopAndIssueCapability (options : Options StopFields)
  | stopSettles (writer : Handle) (settled : Settled)
  | consumeCapability (options : Options ConsumeFields)
  | snapshotSettles (capability : Handle) (settled : Settled)
  | revokeWriter (options : Options WriterFields)
  | retireWriter (options : Options WriterFields)
  | dispose (argumentCount : Nat)

/-- What happens to the writers and the capabilities. -/
inductive Event where
  | registered (writer : Handle) (slot : SlotKey) (epoch : PositiveUint64)
  /-- `stopWriter` is called. -/
  | stopCalled (writer : Handle)
  /-- The stop is confirmed. -/
  | stopConfirmed (writer : Handle)
  | issued (writer capability : Handle)
  /-- `runSnapshot` is called. -/
  | snapshotCalled (writer capability : Handle)
  /-- `consumeCapability` resolves. -/
  | consumed (writer capability : Handle)
  /-- The writer is revoked by a call, or its capability by a rejected use. -/
  | revoked (writer : Handle)
  | retired (writer : Handle)
  | disposed
  /-- The call or the promise fails. -/
  | failed (code : ErrorCode)
deriving DecidableEq

namespace World

variable (w : World)

/-- The world after a method that leaves the coordinator as it was when it fails. -/
def after {α : Type} (result : Except ErrorCode α) (next : α → World × List Event) : World × List Event :=
  match result with
  | .ok a => next a
  | .error code => (w, [.failed code])

def settleStop (handle : Handle) (record : WriterRecord) (settled : Settled) : World × List Event :=
  let (c, result) := w.coordinator.stopSettles handle record settled
  let next : World := { w with coordinator := c, stops := w.stops.erase handle }
  match settled, result with
  | .yielded .stopConfirmed, .ok capability => (next, [.stopConfirmed handle, .issued handle capability])
  | .yielded .stopConfirmed, .error code => (next, [.stopConfirmed handle, .failed code])
  | _, .ok capability => (next, [.issued handle capability])
  | _, .error code => (next, [.failed code])

def settleSnapshot (capability handle : Handle) (record : WriterRecord) (settled : Settled) :
    World × List Event :=
  let (c, result) := w.coordinator.snapshotSettles capability handle record settled
  let next : World := { w with coordinator := c, snapshots := w.snapshots.erase capability }
  match result with
  | .ok _ => (next, [.consumed handle capability])
  | .error code => (next, [.failed code])

def consume (options : Options ConsumeFields) : World × List Event :=
  match w.coordinator.consumeCapability options with
  | (c, .refused code) => ({ w with coordinator := c }, [.failed code])
  | (c, .rejected handle) =>
      ({ w with coordinator := c }, [.revoked handle, .failed .stoppedWriterCapabilityRejected])
  | (c, .running capability handle) =>
      ({ w with coordinator := c, snapshots := capability :: w.snapshots },
        [.snapshotCalled handle capability])

/-- One call, or the settling of a callback that has not settled yet. -/
def perform : Call → World × List Event
  | .assertWriterLaunchAvailable options =>
      w.after (w.coordinator.assertWriterLaunchAvailable options) fun _ => (w, [])
  | .registerWriter options =>
      w.after (w.coordinator.registerWriter options) fun (handle, c) =>
        ({ w with coordinator := c },
          ((c.writerRecords.get? handle).map fun record =>
            Event.registered handle record.slot record.writerFence.fencingEpoch).toList)
  | .stopAndIssueCapability options =>
      w.after (w.coordinator.stopAndIssueCapability options) fun (handle, c) =>
        ({ w with coordinator := c, stops := handle :: w.stops }, [.stopCalled handle])
  | .stopSettles handle settled =>
      match w.coordinator.writerRecords.get? handle with
      | some record => if handle ∈ w.stops then w.settleStop handle record settled else (w, [])
      | none => (w, [])
  | .consumeCapability options => w.consume options
  | .snapshotSettles capability settled =>
      match w.coordinator.capabilityRecords.get? capability with
      | some { writerRecord := handle, .. } =>
          match w.coordinator.writerRecords.get? handle with
          | some record =>
              if capability ∈ w.snapshots then w.settleSnapshot capability handle record settled else (w, [])
          | none => (w, [])
      | none => (w, [])
  | .revokeWriter options =>
      w.after (w.coordinator.revokeWriter options) fun (handle, c) =>
        ({ w with coordinator := c }, [.revoked handle])
  | .retireWriter options =>
      w.after (w.coordinator.retireWriter options) fun (handle, c) =>
        ({ w with coordinator := c }, [.retired handle])
  | .dispose argumentCount =>
      w.after (w.coordinator.dispose argumentCount) fun c => ({ w with coordinator := c }, [.disposed])

end World

end PortableCodex.StoppedWriter
