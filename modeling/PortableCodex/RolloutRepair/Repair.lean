import Mathlib.Logic.Function.Basic
import PortableCodex.RolloutRepair.Analysis
import PortableCodex.Traces.Program

/-!
The repair of all rollout files of a tree: `repairWithHooks` and `replaceFile`.

Every awaited step can throw, and nothing else changes the tree meanwhile. What is checked of identities, modes and
directory entries is one step that can throw; `localeCompare` is a parameter.
-/

namespace PortableCodex.RolloutRepair

open Js Contracts Traces

/-- `MAX_TOTAL_BYTES` -/
def maxTotalBytes : Nat := 256 * 1024 * 1024

/-- `MAX_ROLLOUT_FILES` -/
def maxRolloutFiles : Nat := 256

inductive Code
  | invalidRequest
  | runtimeIdentityMismatch
  | unsafeFilesystem
  | rolloutSetInvalid
  | unsupportedRolloutObject
  | rolloutContentInvalid
  | repairFailed
  | repairOutcomeUncertain
deriving DecidableEq

/-- An error of the module, or any other. -/
inductive Thrown
  | internal (code : Code)
  | external
deriving DecidableEq

/-! ### Trees and steps -/

/-- The rollout files under `sessions`, in the order of a scan. -/
structure Tree where
  paths : List JsString
  distinct : paths.Nodup
  content : JsString → Bytes

def Tree.replace (tree : Tree) (path : JsString) (bytes : Bytes) : Tree :=
  { tree with content := Function.update tree.content path bytes }

/-- The tree with the temporary file, and whether a rename was attempted. -/
structure Disk where
  tree : Tree
  temporary : Option Bytes
  renamed : Bool

inductive Op
  | scanTree
  /-- Checks of files and directories, modes, hooks, syncs and closing. -/
  | verify
  | openTemporary
  | writeFile (bytes : Bytes)
  | readTemporary
  | unlinkTemporary
  | rename (path : JsString)
  | readPinnedFile (path : JsString)

abbrev Answer : Op → Type
  | .scanTree => Except Thrown Tree
  | .readTemporary => Except Thrown Bytes
  | .readPinnedFile _ => Except Thrown Bytes
  | _ => Except Thrown Unit

abbrev Awaited (A : Type) := Fallible Op Answer Thrown A

def scanTree : Awaited Tree := @Program.perform Op Answer .scanTree

def verify : Awaited Unit := @Program.perform Op Answer .verify

def openTemporary : Awaited Unit := @Program.perform Op Answer .openTemporary

def writeFile (bytes : Bytes) : Awaited Unit := @Program.perform Op Answer (.writeFile bytes)

def readTemporary : Awaited Bytes := @Program.perform Op Answer .readTemporary

def unlinkTemporary : Awaited Unit := @Program.perform Op Answer .unlinkTemporary

def rename (path : JsString) : Awaited Unit := @Program.perform Op Answer (.rename path)

def readPinnedFile (path : JsString) : Awaited Bytes := @Program.perform Op Answer (.readPinnedFile path)

def check (holds : Prop) [Decidable holds] (code : Code) : Awaited Unit :=
  if holds then pure () else throw (.internal code)

def fromExcept {A : Type} : Except Code A → Awaited A
  | .ok value => pure value
  | .error code => throw (.internal code)

/-! ### The set of files -/

structure RolloutFile where
  relativePath : JsString
  bytes : Bytes

structure Entry where
  file : RolloutFile
  analysis : Analysis

structure RuntimeIdentity where
  codexBinarySha256 : JsString
  codexVersion : JsString
  sourceAnalysisCommit : JsString

structure Request where
  rootSessionId : Uuid
  runtimeIdentity : RuntimeIdentity

/-- The files that a scan reads, with the checks of their number and sizes. -/
def readFiles (content : JsString → Bytes) (count total : Nat) : List JsString → Except Code (List RolloutFile)
  | [] => .ok []
  | path :: paths =>
      if maxRolloutFiles ≤ count then .error .rolloutSetInvalid
      else if ¬ (0 < (content path).length ∧ (content path).length ≤ maxFileBytes) then
        .error .rolloutContentInvalid
      else if maxTotalBytes < total + (content path).length then .error .rolloutSetInvalid
      else do
        let files ← readFiles content (count + 1) (total + (content path).length) paths
        .ok ({ relativePath := path, bytes := content path } :: files)

def analyze (file : RolloutFile) : Except Code Entry :=
  match analyzeBytes file.bytes with
  | some analysis => .ok { file, analysis }
  | none => .error .rolloutContentInvalid

def analyzeAll : List RolloutFile → Except Code (List Entry)
  | [] => .ok []
  | file :: files => do
      let entry ← analyze file
      let entries ← analyzeAll files
      .ok (entry :: entries)

/-- Exactly one file is of the root thread, and it is of the root session. -/
def checkRoots (root : Uuid) (metas : List SessionMeta) : Except Code Unit :=
  match metas.filter fun sessionMeta => sessionMeta.threadId = root with
  | [sessionMeta] => if sessionMeta.sessionId = root then .ok () else .error .rolloutSetInvalid
  | _ => .error .rolloutSetInvalid

/-- All files are of the root session, each of a thread of its own. -/
def checkThreads (root : Uuid) (threadIds : List Uuid) : List SessionMeta → Except Code Unit
  | [] => .ok ()
  | sessionMeta :: metas =>
      if sessionMeta.sessionId = root ∧ sessionMeta.threadId ∉ threadIds then
        checkThreads root (sessionMeta.threadId :: threadIds) metas
      else .error .rolloutSetInvalid

def checkSet (root : Uuid) (metas : List SessionMeta) : Except Code Unit := do
  checkRoots root metas
  checkThreads root [] metas

/-- What is found out about a tree before anything is changed. -/
def analyzeTree (root : Uuid) (tree : Tree) : Except Code (List Entry) := do
  let files ← readFiles tree.content 0 0 tree.paths
  if files.isEmpty then .error .rolloutSetInvalid
  else do
    let entries ← analyzeAll files
    checkSet root (entries.map (·.analysis.sessionMeta))
    .ok entries

/-! ### Replacing a file -/

def prepareTemporary (after : Bytes) : Awaited Unit := do
  openTemporary
  verify
  writeFile after
  verify
  let written ← readTemporary
  check (written.length = after.length ∧ sha256 written = sha256 after) .repairFailed
  verify

/-- `replaceFile` from its rename. -/
def publish (path : JsString) (after : Bytes) : Awaited Unit := do
  rename path
  verify
  let replacement ← readPinnedFile path
  check (replacement.length = after.length ∧ sha256 replacement = sha256 after) .repairOutcomeUncertain

/-- A temporary file that was not renamed is removed where that is possible. -/
def discardTemporary (thrown : Thrown) : Awaited Unit := do
  tryCatch unlinkTemporary fun _ => pure ()
  if thrown = .internal .repairOutcomeUncertain then throw thrown else throw (.internal .repairFailed)

def replaceFile (path : JsString) (after : Bytes) : Awaited Unit := do
  tryCatch (prepareTemporary after) discardTemporary
  tryCatch (publish path after) fun _ => throw (.internal .repairOutcomeUncertain)

/-! ### Repairing the set -/

structure ProofState where
  sha256 : Bytes
  size : Nat
deriving DecidableEq

def proofState (bytes : Bytes) : ProofState where
  sha256 := sha256 bytes
  size := bytes.length

structure Proof where
  action : Action
  after : ProofState
  before : ProofState
  relativePath : JsString
  removedBytes : Nat
deriving DecidableEq

def Entry.proof (entry : Entry) : Proof where
  action := entry.analysis.action
  after := proofState entry.analysis.after
  before := proofState entry.file.bytes
  relativePath := entry.file.relativePath
  removedBytes := entry.analysis.removedBytes

structure Report where
  compatibility : RuntimeIdentity
  files : List Proof
  rootSessionId : Uuid

/-- `localeCompare(…, "en")`, with what a comparison of texts promises. -/
structure Collation where
  le : JsString → JsString → Bool
  total : ∀ left right, (le left right || le right left) = true
  trans : ∀ first second third, le first second = true → le second third = true → le first third = true

def sortProofs (collation : Collation) (proofs : List Proof) : List Proof :=
  proofs.mergeSort fun left right => collation.le left.relativePath right.relativePath

/-- The catch block of `repairWithHooks`. -/
def settle (published : Bool) : Thrown → Thrown
  | .internal code =>
      if published ∧ code ≠ .repairOutcomeUncertain then .internal .repairOutcomeUncertain else .internal code
  | .external => if published then .internal .repairOutcomeUncertain else .internal .unsafeFilesystem

/-- A part of `repairWithHooks` while `published` has this value. -/
def during {A : Type} (published : Bool) (part : Awaited A) : Awaited A :=
  tryCatch part fun thrown => throw (settle published thrown)

def repairFile (entry : Entry) : Awaited Unit :=
  if entry.analysis.action = .unchanged then verify
  else do
    verify
    replaceFile entry.file.relativePath entry.analysis.after

/-- The loop over the files, with the value of `published` after it. -/
def repairFiles (published : Bool) : List Entry → Awaited Bool
  | [] => pure published
  | entry :: entries => do
      during published (repairFile entry)
      repairFiles (published || entry.analysis.action ≠ .unchanged) entries

def normalizeRequest (options : Except Thrown Request) : Awaited Request :=
  match options with
  | .ok request => pure request
  | .error (.internal code) => throw (.internal code)
  | .error .external => throw (.internal .invalidRequest)

def loadSet (root : Uuid) : Awaited (List Entry) := do
  let tree ← scanTree
  let entries ← fromExcept (analyzeTree root tree)
  verify
  pure entries

def repairWithHooks (collation : Collation) (options : Except Thrown Request) : Awaited Report := do
  let request ← normalizeRequest options
  let entries ← during false (loadSet request.rootSessionId)
  let published ← repairFiles false entries
  during published verify
  pure {
    compatibility := request.runtimeIdentity
    files := sortProofs collation (entries.map Entry.proof)
    rootSessionId := request.rootSessionId }

end PortableCodex.RolloutRepair
