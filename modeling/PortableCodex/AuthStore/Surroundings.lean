import PortableCodex.AuthStore.Store
import PortableCodex.Js.Map

/-!
The surroundings of the auth state store.

`effect` says which answers an operation gets in a store directory and what it makes of the directory.
Every operation can fail; what the store relies on is that reports are true: a canonical file is reported
as missing only when it is, a listing shows every candidate, a key ID names its key, and a rename that the
lock reports as not committed has not happened. In calm surroundings the operations of a reader do not fail.
-/

namespace PortableCodex.AuthStore

open Js ProviderState Traces

/-- The canonical file and the promotion candidates, by their content. -/
structure Directory where
  canonical : Option Bytes
  candidates : JsMap CandidateName Bytes

namespace Directory

def NoCandidates (d : Directory) : Prop := ∀ name, d.candidates.get? name = none

def setCandidate (d : Directory) (name : CandidateName) (content : Bytes) : Directory :=
  { d with candidates := d.candidates.set name content }

/-- The candidate takes the place of the canonical file. -/
def promote (d : Directory) (name : CandidateName) : Directory :=
  { canonical := d.candidates.get? name, candidates := d.candidates.delete name }

@[simp] theorem setCandidate_canonical (d : Directory) (name : CandidateName) (content : Bytes) :
    (d.setCandidate name content).canonical = d.canonical := rfl

@[simp] theorem setCandidate_self (d : Directory) (name : CandidateName) (content : Bytes) :
    (d.setCandidate name content).candidates.get? name = some content := JsMap.get?_set_self

@[simp] theorem promote_canonical (d : Directory) (name : CandidateName) :
    (d.promote name).canonical = d.candidates.get? name := rfl

end Directory

/-- The answer of an operation that does not fail; the operations of a write are left free. -/
def Calm {Key : Type} (brokerUid : Option Nat) (before : Directory) : (op : StoreOp) → StoreAnswer Key op → Prop
  | .openDirectoryGuard, answer => answer = true
  | .acquireLock, answer => answer = .ok ()
  | .assertDirectoryCurrent, answer => answer = none
  | .readDirectory, answer => answer ≠ none
  | .assertHeld, answer => answer = .ok ()
  | .openCanonical, answer => answer = .ok () ∨ ∃ error, answer = .error error ∧ error.code = some (js "ENOENT")
  | .statCanonical, answer => ∃ metadata, answer = .ok metadata ∧ checkMetadata brokerUid metadata = .ok ()
  | .readCanonicalFile, answer => before.canonical ≠ none → ∃ bytes, answer = .ok bytes
  | .getKey _, answer => ∃ key, answer = .secret key
  | .syncDirectory, answer => answer = .ok ()
  | .releaseLock, answer => answer = true
  | _, _ => True

/-- The answers an operation can get, and the directory after it. -/
def Truthful {Key : Type} (keys : OpaqueId → Key) (before : Directory) :
    (op : StoreOp) → StoreAnswer Key op → Directory → Prop
  | .readDirectory, answer, after => after = before ∧ ∀ entries ∈ answer,
      ∀ name : CandidateName, name.val ∈ entries ↔ before.candidates.get? name ≠ none
  | .openCanonical, answer, after => after = before ∧ (answer = .ok () → before.canonical ≠ none) ∧
      ∀ error, answer = .error error → error.code = some (js "ENOENT") → before.canonical = none
  | .statCanonical, answer, after => after = before ∧ ∀ error, answer = .error error →
      error.code ≠ some (js "ENOENT")
  | .readCanonicalFile, answer, after => after = before ∧
      (∀ bytes, answer = .ok bytes → before.canonical = some bytes) ∧
      ∀ error, answer = .error error → error.code ≠ some (js "ENOENT")
  | .getKey keyId, answer, after => after = before ∧ ∀ key, answer = .secret key → key = keys keyId
  | .activeKey, answer, after => after = before ∧ ∀ keyId key, answer = .active keyId key → key = keys keyId
  | .createTemporary name, answer, after =>
      -- `O_EXCL`: only a new file is created
      (after = before ∧ answer ≠ .ok ()) ∨
        (before.candidates.get? name = none ∧ after = before.setCandidate name [])
  | .writeTemporary name content, answer, after =>
      -- a failed write leaves anything behind
      ∃ written, after = before.setCandidate name written ∧ (answer = .ok () → written = content)
  | .renameWhileHeld name, answer, after =>
      (after = before ∧ answer ≠ .ok ()) ∨
        (before.candidates.get? name ≠ none ∧ after = before.promote name ∧
          ∀ error, answer = .error error → error.renameOutcome ≠ some (js "not-committed"))
  | _, _, after => after = before

/-- The operations that can change the directory. -/
def StoreOp.writes : StoreOp → Bool
  | .createTemporary _ => true
  | .writeTemporary _ _ => true
  | .renameWhileHeld _ => true
  | _ => false

theorem Truthful.still {Key : Type} {keys : OpaqueId → Key} {before after : Directory} {op : StoreOp}
    {answer : StoreAnswer Key op} (truthful : Truthful keys before op answer after) (reads : op.writes = false) :
    after = before := by
  cases op with
  | createTemporary name => cases reads
  | writeTemporary name content => cases reads
  | renameWhileHeld name => cases reads
  | readDirectory => exact truthful.1
  | openCanonical => exact truthful.1
  | statCanonical => exact truthful.1
  | readCanonicalFile => exact truthful.1
  | getKey keyId => exact truthful.1
  | activeKey => exact truthful.1
  | _ => exact truthful

/-- The surroundings of a store; in calm ones no operation fails. -/
def effect {Key : Type} (keys : OpaqueId → Key) (brokerUid : Option Nat) (calm : Bool) :
    Effect StoreOp (StoreAnswer Key) Directory := fun before op answer after =>
  Truthful keys before op answer after ∧ (calm = true → Calm brokerUid before op answer)

/-- Calm surroundings answer every operation. -/
theorem effect_total {Key : Type} (keys : OpaqueId → Key) (brokerUid : Option Nat) (d : Directory) (op : StoreOp) :
    ∃ answer after, effect keys brokerUid true d op answer after := by
  cases op with
  | openDirectoryGuard => exact ⟨true, d, rfl, fun _ => rfl⟩
  | assertDirectoryCurrent => exact ⟨none, d, rfl, fun _ => rfl⟩
  | acquireLock => exact ⟨.ok (), d, rfl, fun _ => rfl⟩
  | assertHeld => exact ⟨.ok (), d, rfl, fun _ => rfl⟩
  | syncDirectory => exact ⟨.ok (), d, rfl, fun _ => rfl⟩
  | releaseLock => exact ⟨true, d, rfl, fun _ => rfl⟩
  | readDirectory =>
      refine ⟨some (d.candidates.keys.map Subtype.val), d, ⟨rfl, ?_⟩, fun _ => nofun⟩
      rintro _ ⟨⟩ name
      rw [List.mem_map_of_injective Subtype.val_injective, JsMap.mem_keys, ← Option.isSome_iff_exists,
        Option.isSome_iff_ne_none]
  | openCanonical =>
      cases file : d.canonical with
      | none =>
          refine ⟨.error ⟨some (js "ENOENT"), none⟩, d, ⟨rfl, nofun, fun _ _ _ => file⟩, fun _ => ?_⟩
          exact .inr ⟨_, rfl, rfl⟩
      | some bytes =>
          refine ⟨.ok (), d, ⟨rfl, fun _ => ?_, nofun⟩, fun _ => .inl rfl⟩
          rw [file]
          exact nofun
  | statCanonical =>
      refine ⟨.ok ⟨true, 1, 0, brokerUid.getD 0, 0⟩, d, ⟨rfl, nofun⟩, fun _ => ⟨_, rfl, ?_⟩⟩
      have owner : ∀ uid ∈ brokerUid, brokerUid.getD 0 = uid := fun uid named => by rw [named]; rfl
      rw [checkMetadata, ensure_pos ⟨rfl, rfl, Nat.zero_and _⟩, ensure_pos owner, ensure_pos (Nat.zero_le _)]
      rfl
  | readCanonicalFile =>
      cases file : d.canonical with
      | none =>
          refine ⟨.error ⟨none, none⟩, d, ⟨rfl, nofun, ?_⟩, fun _ present => absurd file present⟩
          rintro _ ⟨⟩
          exact nofun
      | some bytes =>
          refine ⟨.ok bytes, d, ⟨rfl, ?_, nofun⟩, fun _ _ => ⟨bytes, rfl⟩⟩
          rintro _ ⟨⟩
          exact file
  | getKey keyId =>
      exact ⟨.secret (keys keyId), d, ⟨rfl, fun key same => (KeyAnswer.secret.inj same).symm⟩, fun _ => ⟨_, rfl⟩⟩
  | activeKey => exact ⟨.throws, d, ⟨rfl, nofun⟩, fun _ => trivial⟩
  | randomBytes => exact ⟨.ok none, d, rfl, fun _ => trivial⟩
  | createTemporary name => exact ⟨.error ⟨none, none⟩, d, .inl ⟨rfl, nofun⟩, fun _ => trivial⟩
  | chmodTemporary name => exact ⟨.ok (), d, rfl, fun _ => trivial⟩
  | writeTemporary name content => exact ⟨.ok (), _, ⟨content, rfl, fun _ => rfl⟩, fun _ => trivial⟩
  | syncTemporary name => exact ⟨.ok (), d, rfl, fun _ => trivial⟩
  | closeTemporary name => exact ⟨.ok (), d, rfl, fun _ => trivial⟩
  | fault point => exact ⟨.ok (), d, rfl, fun _ => trivial⟩
  | renameWhileHeld name => exact ⟨.error ⟨none, none⟩, d, .inl ⟨rfl, nofun⟩, fun _ => trivial⟩

end PortableCodex.AuthStore
