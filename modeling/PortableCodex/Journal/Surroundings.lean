import PortableCodex.Journal.Journal

/-!
The surroundings of the operation journal: the files of one operation ID.

`effect` says which answers an operation can get and what it makes of the files. Every operation can fail;
what the journal relies on is that reports are true: a file is reported as missing only when it is, a read
yields the content of the file, and a rename that a trusted lock reports as not committed has not happened.
A file is durable once its content and, after that, the directory have been synced.
-/

namespace PortableCodex.Journal

open Js Traces

structure File where
  content : Bytes
  synced : Bool

/-- The canonical and the temporary file of an operation ID, and the content of the canonical file that is on
stable storage. -/
structure RecordFiles where
  canonical : Option File
  temporary : Option File
  durable : Option Bytes

namespace RecordFiles

def empty : RecordFiles := { canonical := none, temporary := none, durable := none }

def file (files : RecordFiles) : FileRole → Option File
  | .canonical => files.canonical
  | .temporary => files.temporary

/-- The bytes of the canonical file. -/
def content (files : RecordFiles) : Option Bytes := files.canonical.map File.content

def temporaryContent (files : RecordFiles) : Option Bytes := files.temporary.map File.content

def setTemporary (files : RecordFiles) (content : Bytes) : RecordFiles :=
  { files with temporary := some { content, synced := false } }

def syncFile (files : RecordFiles) : FileRole → RecordFiles
  | .canonical => { files with canonical := files.canonical.map fun file => { file with synced := true } }
  | .temporary => { files with temporary := files.temporary.map fun file => { file with synced := true } }

/-- The temporary file takes the place of the canonical one. -/
def rename (files : RecordFiles) : RecordFiles := { files with canonical := files.temporary, temporary := none }

/-- The content of the canonical file is synced. -/
def Synced (files : RecordFiles) : Prop := ∀ file ∈ files.canonical, file.synced = true

/-- The canonical file is on stable storage. -/
def Durable (files : RecordFiles) : Prop := files.Synced ∧ files.durable = files.content

@[simp] theorem setTemporary_content (files : RecordFiles) (content : Bytes) :
    (files.setTemporary content).content = files.content := rfl

@[simp] theorem setTemporary_temporaryContent (files : RecordFiles) (content : Bytes) :
    (files.setTemporary content).temporaryContent = some content := rfl

@[simp] theorem rename_content (files : RecordFiles) : files.rename.content = files.temporaryContent := rfl

@[simp] theorem rename_temporaryContent (files : RecordFiles) : files.rename.temporaryContent = none := rfl

@[simp] theorem syncFile_content (files : RecordFiles) (role : FileRole) :
    (files.syncFile role).content = files.content := by
  cases role with
  | canonical => exact Option.map_map _ _ _
  | temporary => rfl

@[simp] theorem syncFile_temporaryContent (files : RecordFiles) (role : FileRole) :
    (files.syncFile role).temporaryContent = files.temporaryContent := by
  cases role with
  | canonical => rfl
  | temporary => exact Option.map_map _ _ _

@[simp] theorem syncFile_durable (files : RecordFiles) (role : FileRole) :
    (files.syncFile role).durable = files.durable := by cases role <;> rfl

end RecordFiles

/-- The answers an operation can get, and the files after it. -/
def Truthful (trustRenameOutcome : Bool) (before : RecordFiles) :
    (op : JournalOp) → JournalAnswer op → RecordFiles → Prop
  | .inspectTemporaryRecord, answer, after => after = before ∧
      ∀ present, answer = some present → (present = true ↔ before.temporary ≠ none)
  | .openCanonical, answer, after => after = before ∧ (answer = .opened → before.canonical ≠ none) ∧
      (answer = .missing → before.canonical = none)
  | .lstat path, answer, after => after = before ∧ (answer = .missing → before.file path = none) ∧
      ∀ metadata, answer = .found metadata → before.file path ≠ none
  | .readCanonicalFile, answer, after => after = before ∧ ∀ bytes, answer = some bytes → before.content = some bytes
  | .syncFile handle, answer, after => (answer = false ∧ after = before) ∨ after = before.syncFile handle
  | .createTemporary, answer, after =>
      -- `O_EXCL`: only a new file is created
      (answer = false ∧ after = before) ∨ (before.temporary = none ∧ after = before.setTemporary [])
  | .writeTemporary content, answer, after =>
      -- a failed write leaves anything behind
      ∃ written, after = before.setTemporary written ∧ (answer = true → written = content)
  | .renameWhileHeld _, answer, after =>
      (answer ≠ .renamed ∧ after = before) ∨ (before.temporary ≠ none ∧ after = before.rename ∧
        (trustRenameOutcome = true → answer ≠ .failed (some (js "not-committed"))))
  | .syncDirectory, answer, after => (answer = false ∧ after = before) ∨
      ∃ durable, after = { before with durable } ∧ (before.Synced → durable = before.content)
  | _, _, after => after = before

/-- The surroundings of the journal. -/
def effect (trustRenameOutcome : Bool) : Effect JournalOp JournalAnswer RecordFiles := Truthful trustRenameOutcome

/-- Answers of a directory where nothing fails but the faults that are injected. -/
def calmAnswer (fails : FaultPoint → Bool) (currentUid : Nat) (files : RecordFiles) :
    (op : JournalOp) → JournalAnswer op × RecordFiles
  | .inspectTemporaryRecord => (some files.temporary.isSome, files)
  | .openCanonical => (if files.canonical.isSome then .opened else .missing, files)
  | .stat .canonical => (files.canonical.map metadata, files)
  | .stat .temporary => ((files.temporary.or files.canonical).map metadata, files) -- the handle outlives the rename
  | .lstat path => (match files.file path with
      | some file => .found (metadata file)
      | none => .missing, files)
  | .readCanonicalFile => (files.content, files)
  | .syncFile handle => (true, files.syncFile handle)
  | .createTemporary =>
      if files.temporary.isSome then (false, files) else (true, files.setTemporary [])
  | .writeTemporary content => (true, files.setTemporary content)
  | .renameWhileHeld _ => if files.temporary.isSome then (.renamed, files.rename) else (.failed none, files)
  | .syncDirectory => (true, { files with durable := files.content })
  | .openDirectory => (true, files)
  | .acquireLock => (true, files)
  | .assertCurrent => (true, files)
  | .assertIdentityCurrent => (true, files)
  | .assertHeld => (true, files)
  | .closeFile _ => (true, files)
  | .chmodTemporary => (true, files)
  | .fault point => (!fails point, files)
  | .releaseLock => (true, files)
  | .closeDirectory => (true, files)
where
  metadata (file : File) : FileMetadata :=
    { identity := ⟨0, 0⟩, isFile := true, nlink := 1, uid := currentUid, mode := 0o600, size := file.content.length,
      mtimeNs := 0, ctimeNs := 0 }

theorem calmAnswer_truthful (trustRenameOutcome : Bool) (fails : FaultPoint → Bool) (currentUid : Nat)
    (files : RecordFiles) (op : JournalOp) :
    effect trustRenameOutcome files op (calmAnswer fails currentUid files op).1
      (calmAnswer fails currentUid files op).2 := by
  cases op with
  | inspectTemporaryRecord =>
      refine ⟨rfl, ?_⟩
      rintro _ ⟨⟩
      exact Option.isSome_iff_ne_none
  | openCanonical =>
      refine ⟨rfl, ?_⟩
      cases present : files.canonical with
      | none => simp [calmAnswer, present]
      | some file => simp [calmAnswer, present]
  | lstat path =>
      refine ⟨rfl, ?_⟩
      cases present : files.file path with
      | none => simp [calmAnswer, present]
      | some file => simp [calmAnswer, present]
  | readCanonicalFile => exact ⟨rfl, fun _ => id⟩
  | syncFile handle => exact .inr rfl
  | createTemporary =>
      cases present : files.temporary with
      | none => exact .inr ⟨present, by simp [calmAnswer, present]⟩
      | some file => exact .inl (by simp [calmAnswer, present])
  | writeTemporary content => exact ⟨content, rfl, fun _ => rfl⟩
  | stat handle => cases handle <;> exact rfl
  | renameWhileHeld target =>
      cases present : files.temporary with
      | none => exact .inl (by simp [calmAnswer, present])
      | some file =>
          refine .inr ⟨by simp [present], by simp [calmAnswer, present], fun _ => ?_⟩
          simp [calmAnswer, present]
  | syncDirectory => exact .inr ⟨files.content, rfl, fun _ => rfl⟩
  | _ => exact rfl

/-- The operations that can change the content of a file. -/
def JournalOp.writes : JournalOp → Bool
  | .createTemporary => true
  | .writeTemporary _ => true
  | .renameWhileHeld _ => true
  | _ => false

/-- What an operation that writes nothing keeps. -/
structure Keeps (before after : RecordFiles) : Prop where
  content : after.content = before.content
  temporary : after.temporaryContent = before.temporaryContent
  synced : before.Synced → after.Synced
  durable : before.Durable → after.Durable

namespace Keeps

theorem refl (files : RecordFiles) : Keeps files files := ⟨rfl, rfl, id, id⟩

theorem trans {a b c : RecordFiles} (first : Keeps a b) (second : Keeps b c) : Keeps a c :=
  ⟨second.content.trans first.content, second.temporary.trans first.temporary, second.synced ∘ first.synced,
    second.durable ∘ first.durable⟩

theorem missing {a b : RecordFiles} (keeps : Keeps a b) : b.temporary = none ↔ a.temporary = none := by
  rw [← Option.map_eq_none_iff (f := File.content), ← Option.map_eq_none_iff (f := File.content)]
  exact Eq.congr_left keeps.temporary

end Keeps

theorem syncFile_synced (files : RecordFiles) : (files.syncFile .canonical).Synced := by
  intro file held
  obtain ⟨_, _, rfl⟩ := Option.map_eq_some_iff.mp held
  rfl

theorem syncFile_keeps (files : RecordFiles) (role : FileRole) : Keeps files (files.syncFile role) := by
  have synced : files.Synced → (files.syncFile role).Synced := by
    intro before
    cases role with
    | canonical => exact syncFile_synced files
    | temporary => exact before
  refine ⟨files.syncFile_content role, files.syncFile_temporaryContent role, synced, ?_⟩
  rintro ⟨before, durable⟩
  refine ⟨synced before, ?_⟩
  rw [files.syncFile_durable, files.syncFile_content, durable]

theorem Truthful.keeps {trustRenameOutcome : Bool} {before after : RecordFiles} {op : JournalOp}
    {answer : JournalAnswer op} (truthful : Truthful trustRenameOutcome before op answer after)
    (reads : op.writes = false) : Keeps before after := by
  have same (h : after = before) : Keeps before after := h ▸ Keeps.refl before
  cases op with
  | createTemporary => cases reads
  | writeTemporary content => cases reads
  | renameWhileHeld target => cases reads
  | inspectTemporaryRecord => exact same truthful.1
  | openCanonical => exact same truthful.1
  | lstat path => exact same truthful.1
  | readCanonicalFile => exact same truthful.1
  | syncFile handle =>
      rcases truthful with ⟨-, unchanged⟩ | rfl
      · exact same unchanged
      · exact syncFile_keeps before handle
  | syncDirectory =>
      rcases truthful with ⟨-, unchanged⟩ | ⟨durable, rfl, settled⟩
      · exact same unchanged
      · exact ⟨rfl, rfl, id, fun held => ⟨held.1, settled held.1⟩⟩
  | _ => exact same truthful

end PortableCodex.Journal
