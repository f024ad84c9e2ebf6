import PortableCodex.ProviderState.Head
import PortableCodex.Traces.Program

/-!
The order in which an operation of a provider checks its lock and changes the files of the state directory.

The programs are the paths of `#run` through recovery, adoption, loading, rotation and append. What files, heads and
requests contain is answered by the surroundings; errors are not told apart, and handles are not closed.
-/

namespace PortableCodex.ProviderState.LockOrder

open Traces

/-! ### Operations -/

inductive Phase
  | pending
  | verified
deriving DecidableEq

inductive File
  | checkpoint (generation : Nat)
  | ledger (generation : Nat)
  | marker (generation : Nat) (phase : Phase)
  | markerStaging (generation : Nat) (phase : Phase)
deriving DecidableEq

inductive FileChange
  | create (file : File)
  | write (file : File)
  | truncate (file : File)
  | rename (file target : File)
  | unlink (file : File)
deriving DecidableEq

/-- The calls of `lock.assertHeld`. -/
inductive Check
  | acquired
  | beforeTruncation
  | afterTruncation
  | beforeProjection
  | afterProjection
  | beforeSourceRemoval
  | beforePendingRemoval
  | beforeVerifiedRemoval
  | beforeCandidateRemoval
  | beforeCandidate
  | beforeMarker
  | beforeAdoption
  | beforeRotation
  | beforeAppend
  | afterAppend
  | afterRead
deriving DecidableEq

structure AdoptionMarker where
  expectedHead : LedgerHead
  nextHead : LedgerHead

inductive Presence
  | complete
  | absent
  | incomplete
deriving DecidableEq

inductive Outcome
  | advanced
  | unchanged
  | unknown

inductive Op
  | assertHeld (check : Check)
  | change (change : FileChange)
  /-- `assertCurrent` of the directory authority -/
  | assertCurrent
  | sync
  | syncDirectory
  /-- A file is opened, read and checked. -/
  | read (file : File)
  /-- `lstat`, for a file that may be missing. -/
  | lookup (file : File)
  | readTrustedLedgerHead
  | readAdoptionMarker (generation : Nat) (phase : Phase)
  | requiredGenerationPresence (head : LedgerHead)
  | predecessorStateContractVersion (generation : Nat)
  | acquireLock
  /-- Whether the cache is of this head and of the files as they are. -/
  | cacheCurrent (head : LedgerHead)
  /-- `parseActiveLedger`, with whether there is a tail to truncate. -/
  | parseActiveLedger (head : LedgerHead)
  /-- The state that an adoption is to have. -/
  | v2AdoptionMaterial
  /-- The number of frames of a checkpoint. -/
  | checkpointArrays
  | canonicalLedgerHead
  | compareAndResolve
  | validateV3AuthorityProjection (head : LedgerHead)
  /-- Whether the operation has an event to append. -/
  | operation
  /-- `encodeDeltaEvent`, with whether `eventRequiresRotation`. -/
  | encodeDeltaEvent (head : LedgerHead)

/-- What an operation is answered; `none` and `false` are rejections. -/
abbrev Answer : Op → Type
  | .cacheCurrent _ => Bool
  | .lookup _ => Option Bool
  | .readTrustedLedgerHead => Option LedgerHead
  | .readAdoptionMarker _ _ => Option (Option AdoptionMarker)
  | .requiredGenerationPresence _ => Option Presence
  | .predecessorStateContractVersion _ => Option (Option Version)
  | .parseActiveLedger _ => Option Bool
  | .checkpointArrays => Option Nat
  | .canonicalLedgerHead => Option LedgerHead
  | .compareAndResolve => Outcome
  | .operation => Option Bool
  | .encodeDeltaEvent _ => Option Bool
  | _ => Bool

abbrev Action (A : Type) := Fallible Op Answer Unit A

def ask (op : Op) : Action (Answer op) := Program.ask op fun answer => .done (.ok answer)

def fail {A : Type} : Action A := throw ()

def require (holds : Bool) : Action Unit := if holds then pure () else fail

def found {A : Type} : Option A → Action A
  | some value => pure value
  | none => fail

/-- A step that is only taken where this holds. -/
def onlyIf (holds : Bool) (step : Action Unit) : Action Unit := if holds then step else pure ()

def assertHeld (check : Check) : Action Unit := do require (← ask (.assertHeld check))

def change (fileChange : FileChange) : Action Unit := do require (← ask (.change fileChange))

def assertCurrent : Action Unit := do require (← ask .assertCurrent)

def sync : Action Unit := do require (← ask .sync)

def syncDirectory : Action Unit := do require (← ask .syncDirectory)

def read (file : File) : Action Unit := do require (← ask (.read file))

def readTrustedLedgerHead : Action LedgerHead := do found (← ask .readTrustedLedgerHead)

/-- The head is read and has to be this one. -/
def assertHead (head : LedgerHead) : Action Unit := do require ((← readTrustedLedgerHead) = head)

def nextHead : Action LedgerHead := do found (← ask .canonicalLedgerHead)

/-! ### Files -/

def createNamedStateFile (file : File) : Action Unit := do
  change (.create file)
  read file

def unlinkSafeStateFile (file : File) : Action Bool := do
  let present ← found (← ask (.lookup file))
  if present then
    change (.unlink file)
    pure true
  else pure false

def unlinkStateFiles : List File → Action Bool
  | [] => pure false
  | file :: files => do
      let removed ← unlinkSafeStateFile file
      let others ← unlinkStateFiles files
      pure (removed || others)

/-- Remove files, and sync the directory if there were any. -/
def cleanupFiles (files : List File) : Action Unit := do
  let removed ← unlinkStateFiles files
  onlyIf removed syncDirectory

def cleanupGeneration (generation : Nat) : Action Unit :=
  cleanupFiles [.checkpoint generation, .ledger generation]

def cleanupCheckpointFile (generation : Nat) : Action Unit := cleanupFiles [.checkpoint generation]

def cleanupAdoptionMarkerStaging (generation : Nat) (phases : List Phase) : Action Unit :=
  cleanupFiles (phases.map (.markerStaging generation))

def cleanupAdoptionMarkers (generation : Nat) (phases : List Phase) : Action Unit :=
  cleanupFiles (phases.flatMap fun phase => [.marker generation phase, .markerStaging generation phase])

def createAdoptionMarker (generation : Nat) (phase : Phase) : Action Unit := do
  cleanupAdoptionMarkerStaging generation [phase]
  let present ← found (← ask (.lookup (.marker generation phase)))
  require !present
  createNamedStateFile (.markerStaging generation phase)
  change (.write (.markerStaging generation phase))
  sync
  read (.markerStaging generation phase)
  change (.rename (.markerStaging generation phase) (.marker generation phase))
  read (.marker generation phase)
  syncDirectory
  assertCurrent

def writeFrames (file : File) : Nat → Action Unit
  | 0 => pure ()
  | frames + 1 => do
      change (.write file)
      writeFrames file frames

/-- `writeCheckpointFrames` -/
def writeCheckpointFrames (generation : Nat) : Action Unit := do
  let frames ← found (← ask .checkpointArrays)
  writeFrames (.checkpoint generation) frames

/-! ### Loading -/

def truncateActiveTail (head : LedgerHead) : Action Unit := do
  assertHeld .beforeTruncation
  assertCurrent
  assertHead head
  read (.ledger head.generation.val)
  change (.truncate (.ledger head.generation.val))
  sync
  assertHeld .afterTruncation
  read (.ledger head.generation.val)

def isTrueGenesis (head : LedgerHead) : Bool := head.generation.val = 0 ∧ head.stateRevision.val = 0

/-- The tail behind the head is removed, and the ledger read again. -/
def recoverTail (allowTruncate : Bool) (head : LedgerHead) : Action Unit := do
  require allowTruncate
  truncateActiveTail head
  let tail ← found (← ask (.parseActiveLedger head))
  require !tail

/-- `loadGenerationState` where the cache is not current. -/
def readGenerationState (allowTruncate : Bool) (head : LedgerHead) : Action Unit := do
  onlyIf (head.generation.val ≠ 0) (read (.checkpoint head.generation.val))
  read (.ledger head.generation.val)
  let tail ← found (← ask (.parseActiveLedger head))
  onlyIf tail (recoverTail allowTruncate head)
  read (.ledger head.generation.val)

def loadGenerationState (allowTruncate : Bool) (head : LedgerHead) : Action Unit :=
  if isTrueGenesis head then pure ()
  else do
    onlyIf (head.generation.val ≠ 0) (read (.checkpoint head.generation.val))
    read (.ledger head.generation.val)
    let current ← ask (.cacheCurrent head)
    onlyIf (!current) (readGenerationState allowTruncate head)

/-! ### Adoption -/

def finishVerifiedV2Adoption (marker : AdoptionMarker) (verified : Bool) : Action LedgerHead := do
  assertHeld .beforeProjection
  assertCurrent
  require (← ask (.validateV3AuthorityProjection marker.nextHead))
  assertHeld .afterProjection
  assertCurrent
  assertHead marker.nextHead
  onlyIf (!verified) (createAdoptionMarker marker.nextHead.generation.val .verified)
  assertHeld .beforeSourceRemoval
  assertCurrent
  cleanupGeneration marker.expectedHead.generation.val
  assertHeld .beforePendingRemoval
  assertCurrent
  cleanupAdoptionMarkers marker.nextHead.generation.val [.pending]
  assertHeld .beforeVerifiedRemoval
  assertCurrent
  cleanupAdoptionMarkers marker.nextHead.generation.val [.verified]
  pure marker.nextHead

def discardUnchangedV2Adoption (marker : AdoptionMarker) : Action LedgerHead := do
  cleanupAdoptionMarkers marker.nextHead.generation.val [.pending]
  assertHeld .beforeCandidateRemoval
  assertCurrent
  cleanupGeneration marker.nextHead.generation.val
  fail

/-- `compareAndResolveAdoption` and what follows it. -/
def resolveAdoption (marker : AdoptionMarker) (verified : Bool) : Action LedgerHead := do
  let outcome ← ask .compareAndResolve
  match outcome with
  | .unchanged => discardUnchangedV2Adoption marker
  | .unknown => fail
  | .advanced => finishVerifiedV2Adoption marker verified

def recoverV2AdoptionMaterial (marker : AdoptionMarker) (verified : Bool) : Action LedgerHead := do
  loadGenerationState false marker.expectedHead
  require (← ask .v2AdoptionMaterial)
  loadGenerationState false marker.nextHead
  assertHeld .beforeAdoption
  assertCurrent
  resolveAdoption marker verified

/-- The generation of the markers that a head can have, if any. -/
def markerGeneration (head : LedgerHead) : Option Nat :=
  match head.contractVersion with
  | .v2 => if head.generation.val + 1 < 2 ^ 64 then some (head.generation.val + 1) else none
  | .v3 => some head.generation.val

def recoverMarked (trustedHead : LedgerHead) (verified : Bool) (marker : AdoptionMarker) : Action LedgerHead := do
  let presence ← found (← ask (.requiredGenerationPresence marker.expectedHead))
  if verified then
    require (trustedHead = marker.nextHead)
    if presence = .complete then recoverV2AdoptionMaterial marker true
    else do
      loadGenerationState false marker.nextHead
      finishVerifiedV2Adoption marker true
  else do
    require (presence = .complete)
    require (trustedHead = marker.expectedHead ∨ trustedHead = marker.nextHead)
    recoverV2AdoptionMaterial marker false

/-- A verified marker is of the same heads as the pending one beside it. -/
def markersAgree : Option AdoptionMarker → Option AdoptionMarker → Bool
  | some pending, some verified =>
      pending.expectedHead = verified.expectedHead ∧ pending.nextHead = verified.nextHead
  | _, _ => true

/-- Without a marker, the generation before a head of version 3 must not be of version 2. -/
def assertNoPredecessor (trustedHead : LedgerHead) : Action Unit := do
  let version ← found (← ask (.predecessorStateContractVersion (trustedHead.generation.val - 1)))
  require (version ≠ some .v2)

def recoverV2AdoptionIfNeeded (trustedHead : LedgerHead) : Action (Option LedgerHead) := do
  match markerGeneration trustedHead with
  | none => pure none
  | some generation => do
      cleanupAdoptionMarkerStaging generation [.pending, .verified]
      let pending ← found (← ask (.readAdoptionMarker generation .pending))
      let verified ← found (← ask (.readAdoptionMarker generation .verified))
      require (markersAgree pending verified)
      match verified <|> pending with
      | some marker => do
          let head ← recoverMarked trustedHead verified.isSome marker
          pure (some head)
      | none => do
          onlyIf (trustedHead.contractVersion = .v3 ∧ trustedHead.generation.val ≠ 0)
            (assertNoPredecessor trustedHead)
          pure none

def nextGeneration (head : LedgerHead) : Action Nat :=
  if head.generation.val + 1 < 2 ^ 64 then pure (head.generation.val + 1) else fail

/-- The files of a new generation, before its head. -/
def writeGeneration (generation : Nat) : Action Unit := do
  createNamedStateFile (.ledger generation)
  writeCheckpointFrames generation
  sync
  sync
  read (.checkpoint generation)
  read (.ledger generation)
  syncDirectory

/-- `adoptV2Generation` from its created checkpoint to its pending marker. -/
def prepareAdoption (expectedHead : LedgerHead) (generation : Nat) : Action AdoptionMarker := do
  writeGeneration generation
  let nextHead ← nextHead
  read (.checkpoint generation)
  assertHeld .beforeMarker
  assertCurrent
  assertHead expectedHead
  createAdoptionMarker nextHead.generation.val .pending
  pure { expectedHead, nextHead }

/-- The files of a candidate that has no pending marker are removed. -/
def discardCandidate (generation : Nat) : Action AdoptionMarker := do
  cleanupGeneration generation
  cleanupAdoptionMarkers generation [.pending, .verified]
  fail

def adoptV2Generation (expectedHead : LedgerHead) : Action LedgerHead := do
  require (expectedHead.contractVersion = .v2)
  loadGenerationState true expectedHead
  require (← ask .v2AdoptionMaterial)
  let generation ← nextGeneration expectedHead
  assertHeld .beforeCandidate
  assertCurrent
  assertHead expectedHead
  cleanupGeneration generation
  createNamedStateFile (.checkpoint generation)
  let marker ← tryCatch (prepareAdoption expectedHead generation) fun _ => discardCandidate generation
  assertHeld .beforeAdoption
  assertCurrent
  resolveAdoption marker false

/-! ### Rotating and appending -/

/-- The projection of the authority is only read in exact mode. -/
def validateProjection (exactMode : Bool) (head : LedgerHead) : Action Unit :=
  onlyIf exactMode do require (← ask (.validateV3AuthorityProjection head))

def rotateGeneration (exactMode : Bool) (expectedHead : LedgerHead) : Action LedgerHead := do
  let generation ← nextGeneration expectedHead
  createNamedStateFile (.checkpoint generation)
  writeGeneration generation
  assertHeld .beforeRotation
  assertCurrent
  assertHead expectedHead
  let nextHead ← nextHead
  read (.checkpoint generation)
  let outcome ← ask .compareAndResolve
  match outcome with
  | .unchanged => do
      cleanupGeneration generation
      fail
  | .unknown => fail
  | .advanced => do
      validateProjection exactMode nextHead
      cleanupGeneration expectedHead.generation.val
      pure nextHead

/-- What was written behind the head is taken back. -/
def rollBack (head : LedgerHead) : Action LedgerHead :=
  if isTrueGenesis head then do
    cleanupGeneration head.generation.val
    fail
  else do
    change (.truncate (.ledger head.generation.val))
    sync
    fail

/-- `appendDeltaEvent` from its write to its comparison. -/
def writeDeltaEvent (expectedHead : LedgerHead) : Action LedgerHead := do
  change (.write (.ledger expectedHead.generation.val))
  sync
  onlyIf (isTrueGenesis expectedHead) syncDirectory
  assertHeld .afterAppend
  read (.ledger expectedHead.generation.val)
  let nextHead ← nextHead
  let tail ← found (← ask (.parseActiveLedger nextHead))
  require !tail
  read (.ledger expectedHead.generation.val)
  pure nextHead

/-- The ledger of the first append is created, a later one opened. -/
def openLedger (expectedHead : LedgerHead) : Action Unit :=
  if isTrueGenesis expectedHead then createNamedStateFile (.ledger expectedHead.generation.val)
  else read (.ledger expectedHead.generation.val)

def appendDeltaEvent (exactMode : Bool) (expectedHead : LedgerHead) : Action LedgerHead := do
  let _ ← found (← ask (.encodeDeltaEvent expectedHead))
  openLedger expectedHead
  assertHeld .beforeAppend
  assertCurrent
  assertHead expectedHead
  let nextHead ← tryCatch (writeDeltaEvent expectedHead) fun _ => rollBack expectedHead
  let outcome ← ask .compareAndResolve
  match outcome with
  | .unchanged => rollBack expectedHead
  | .unknown => fail
  | .advanced => do
      validateProjection exactMode nextHead
      pure nextHead

/-! ### An operation -/

/-- The generation that an append is made to. -/
def rotateIfRequired (exactMode : Bool) (head : LedgerHead) : Action LedgerHead :=
  if maxFrameCount ≤ head.frameCount.val then rotateGeneration exactMode head
  else do
    let required ← found (← ask (.encodeDeltaEvent head))
    if required then rotateGeneration exactMode head else pure head

def append (exactMode : Bool) (head : LedgerHead) : Action LedgerHead := do
  let head ← rotateIfRequired exactMode head
  appendDeltaEvent exactMode head

def cleanupPredecessor (head : LedgerHead) : Action Unit :=
  if head.generation.val = 0 then cleanupCheckpointFile head.generation.val
  else cleanupGeneration (head.generation.val - 1)

def cleanupBefore (head : LedgerHead) : Action Unit :=
  if isTrueGenesis head then cleanupGeneration 0 else cleanupPredecessor head

/-- What the generations beside the trusted one have left is removed. -/
def cleanupOrphans (head : LedgerHead) : Action Unit := do
  cleanupBefore head
  onlyIf (head.generation.val < 2 ^ 64 - 1) (cleanupGeneration (head.generation.val + 1))

def recover (exactMode : Bool) (trustedHead : LedgerHead) : Action (Option LedgerHead) :=
  if exactMode then recoverV2AdoptionIfNeeded trustedHead else pure none

/-- The head that the operation goes on from, with its state loaded. -/
def loadTrusted (exactMode : Bool) (trustedHead : LedgerHead) : Action LedgerHead := do
  let recovered ← recover exactMode trustedHead
  match recovered with
  | some head => pure head
  | none =>
      if exactMode ∧ trustedHead.contractVersion = .v2 then do
        cleanupPredecessor trustedHead
        adoptV2Generation trustedHead
      else do
        cleanupOrphans trustedHead
        loadGenerationState true trustedHead
        pure trustedHead

/-- `#run` -/
def run (exactMode : Bool) : Action LedgerHead := do
  assertCurrent
  require (← ask .acquireLock)
  assertHeld .acquired
  assertCurrent
  let trustedHead ← readTrustedLedgerHead
  require (exactMode || trustedHead.contractVersion = .v2)
  let head ← loadTrusted exactMode trustedHead
  require (!exactMode || head.contractVersion = .v3)
  validateProjection exactMode head
  let appends ← found (← ask .operation)
  if appends then append exactMode head
  else do
    assertHeld .afterRead
    assertCurrent
    onlyIf exactMode (assertHead head)
    pure head

end PortableCodex.ProviderState.LockOrder
