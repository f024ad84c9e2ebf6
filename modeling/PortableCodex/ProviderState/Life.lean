import Mathlib.Data.List.Chain
import PortableCodex.ProviderState.Storage

/-!
The life of one storage: its commits, oldest first.

`IsLife` says that each commit follows from the one before by `assertStorageTransition`. What a life
promises is stated over all pairs of commits, however far apart (`IsLife.succeeds`): revisions count
up from 1, the identity stays, the writer epoch never falls and rises at each attachment, and nothing
comes after a destroyed state.
-/

namespace PortableCodex.ProviderState

/-- A committed state of a storage and the operation kind that led to it. -/
structure StorageCommit where
  kind : Kind
  state : StorageState

/-- The kinds that leave a storage attached anew. -/
def Kind.Attaches (kind : Kind) : Prop := kind = .attach ∨ kind = .restoreAttach

/-- The fields that name a storage. -/
def SameIdentity (a b : StorageState) : Prop :=
  b.storageId = a.storageId ∧ b.sessionId = a.sessionId ∧ b.backendId = a.backendId ∧
    b.filesystemId = a.filesystemId ∧ b.imagePath = a.imagePath

/-- What holds of a commit and any later commit of the same storage. -/
structure Succeeds (earlier later : StorageCommit) : Prop where
  live : earlier.state.lifecycle ≠ .destroyed
  notProvision : later.kind ≠ .provision
  identity : SameIdentity earlier.state later.state
  epoch : earlier.state.writerEpoch.val ≤ later.state.writerEpoch.val
  rises : later.kind.Attaches → earlier.state.writerEpoch.val < later.state.writerEpoch.val
  /-- A later attachment is the earlier one or has a later epoch. -/
  attachment : earlier.state.writerEpoch.val < later.state.writerEpoch.val ∨
    later.state.attachment = none ∨ later.state.attachment = earlier.state.attachment

namespace Succeeds

theorem trans {a b c : StorageCommit} (first : Succeeds a b) (second : Succeeds b c) : Succeeds a c where
  live := first.live
  notProvision := second.notProvision
  identity := by
    obtain ⟨storage, session, backend, filesystem, path⟩ := first.identity
    obtain ⟨storage', session', backend', filesystem', path'⟩ := second.identity
    exact ⟨storage'.trans storage, session'.trans session, backend'.trans backend,
      filesystem'.trans filesystem, path'.trans path⟩
  epoch := first.epoch.trans second.epoch
  rises := fun attaches => first.epoch.trans_lt (second.rises attaches)
  attachment := by
    rcases second.attachment with later | gone | same
    · exact .inl (first.epoch.trans_lt later)
    · exact .inr (.inl gone)
    · rw [same]
      rcases first.attachment with later | rest
      · exact .inl (later.trans_le second.epoch)
      · exact .inr rest

instance : Trans Succeeds Succeeds Succeeds := ⟨trans⟩

/-- An attachment has the writer epoch of its state as fencing epoch. -/
theorem fencing {state : StorageState} {attachment : Attachment} (h : state.attachment = some attachment) :
    attachment.fencingEpoch.val = state.writerEpoch.val :=
  (state.consistent.2.2.2.2.2 attachment h).1

/-- A fencing epoch names one attachment of a storage. -/
theorem fencing_injective {a b : StorageCommit} (h : Succeeds a b) {x y : Attachment}
    (left : a.state.attachment = some x) (right : b.state.attachment = some y)
    (same : x.fencingEpoch.val = y.fencingEpoch.val) : x = y := by
  rw [fencing left, fencing right] at same
  rcases h.attachment with later | gone | kept
  · exact absurd same (Nat.ne_of_lt later)
  · rw [right] at gone
    cases gone
  · rw [left, right] at kept
    exact (Option.some.inj kept).symm

end Succeeds

/-! ### One transition -/

/-- What a transition of an existing storage does, by kind. -/
theorem transition_cases {previous next : StorageState} {kind : Kind}
    (h : assertStorageTransition (some previous) next kind) :
    SameStorage previous next ∧
      (kind.Attaches ∧ (∃ kept, Attaches previous next kept) ∨ kind = .detach ∧ Detaches previous next ∨
        kind = .destroy ∧ Destroys previous next ∨
        (kind = .checkpoint ∨ kind = .restore) ∧ KeepsState previous next) := by
  cases kind with
  | provision => exact h.elim
  | attach => exact ⟨h.1, .inl ⟨.inl rfl, _, h.2⟩⟩
  | restoreAttach => exact ⟨h.1, .inl ⟨.inr rfl, _, h.2⟩⟩
  | detach => exact ⟨h.1, .inr (.inl ⟨rfl, h.2⟩)⟩
  | destroy => exact ⟨h.1, .inr (.inr (.inl ⟨rfl, h.2⟩))⟩
  | checkpoint => exact ⟨h.1, .inr (.inr (.inr ⟨.inl rfl, h.2⟩))⟩
  | restore => exact ⟨h.1, .inr (.inr (.inr ⟨.inr rfl, h.2⟩))⟩

theorem attachment_none_of_detached {state : StorageState} (h : state.lifecycle ≠ .attached) :
    state.attachment = none := by
  have parts := state.consistent.1.2.2.1
  rwa [if_neg h] at parts

theorem succeeds_of_transition {a b : StorageCommit}
    (h : assertStorageTransition (some a.state) b.state b.kind) : Succeeds a b := by
  obtain ⟨⟨live, storage, session, backend, filesystem, path, -⟩, effect⟩ := transition_cases h
  have notProvision : b.kind ≠ .provision := by
    intro provision
    rw [provision] at h
    exact h
  have identity : SameIdentity a.state b.state := ⟨storage, session, backend, filesystem, path⟩
  have falls {kind : Kind} (eq : b.kind = kind) (no : ¬ kind.Attaches) (attaches : b.kind.Attaches) :
      a.state.writerEpoch.val < b.state.writerEpoch.val := absurd (eq ▸ attaches) no
  rcases effect with ⟨-, _, attaches⟩ | ⟨kind, detaches⟩ | ⟨kind, destroys⟩ | ⟨kind, keeps⟩
  · obtain ⟨-, -, -, -, less, -⟩ := attaches
    exact ⟨live, notProvision, identity, less.le, fun _ => less, .inl less⟩
  · obtain ⟨-, lifecycle, epoch, -⟩ := detaches
    have gone : b.state.attachment = none := attachment_none_of_detached (by rw [lifecycle]; decide)
    exact ⟨live, notProvision, identity, by rw [epoch], falls kind (by unfold Kind.Attaches; decide),
      .inr (.inl gone)⟩
  · obtain ⟨-, -, epoch, -, -, -, -, gone⟩ := destroys
    exact ⟨live, notProvision, identity, by rw [epoch], falls kind (by unfold Kind.Attaches; decide),
      .inr (.inl gone)⟩
  · obtain ⟨-, epoch, -, -, same, -⟩ := keeps
    refine ⟨live, notProvision, identity, by rw [epoch], ?_, .inr (.inr same.symm)⟩
    rcases kind with kind | kind
    · exact falls kind (by unfold Kind.Attaches; decide)
    · exact falls kind (by unfold Kind.Attaches; decide)

/-- The revision of a committed state is one more than the one before, from 0. -/
theorem revision_of_transition {previous : Option StorageState} {next : StorageState} {kind : Kind}
    (h : assertStorageTransition previous next kind) :
    next.revision.val = (previous.elim 0 fun state => state.revision.val) + 1 := by
  cases previous with
  | none => exact h.2.2.1
  | some previous =>
      obtain ⟨-, -, -, -, -, -, increment⟩ := (transition_cases h).1
      simp only [incrementUint64, Option.ite_none_right_eq_some, Option.some.injEq] at increment
      exact increment.2.symm

/-! ### Whole lives -/

/-- The commits of a storage, each following from the one before. -/
def IsLife (life : List StorageCommit) : Prop :=
  (∀ first ∈ life.head?, assertStorageTransition none first.state first.kind) ∧
    life.IsChain fun a b => assertStorageTransition (some a.state) b.state b.kind

/-- The state a life has come to. -/
def currentOf (life : List StorageCommit) : Option StorageState := life.getLast?.map (·.state)

namespace IsLife

variable {life : List StorageCommit}

theorem nil : IsLife [] := ⟨by rintro _ ⟨⟩, .nil⟩

theorem commit (h : IsLife life) {next : StorageCommit}
    (transition : assertStorageTransition (currentOf life) next.state next.kind) :
    IsLife (life ++ [next]) := by
  rcases List.eq_nil_or_concat life with rfl | ⟨before, last, rfl⟩
  · refine ⟨?_, .singleton _⟩
    rintro _ ⟨⟩
    exact transition
  · have current : currentOf (before ++ [last]) = some last.state := by
      rw [currentOf, List.getLast?_concat]
      rfl
    rw [List.concat_eq_append] at h transition ⊢
    rw [current] at transition
    refine ⟨?_, h.2.append (.singleton _) ?_⟩
    · intro first member
      rw [List.head?_append_of_ne_nil _ (by simp)] at member
      exact h.1 first member
    · intro a last_a b first_b
      rw [List.getLast?_concat] at last_a
      cases last_a
      cases first_b
      exact transition

theorem succeeds (h : IsLife life) : life.Pairwise Succeeds :=
  List.isChain_iff_pairwise.mp (h.2.imp fun _ _ => succeeds_of_transition)

/-- Revisions count up from 1. -/
theorem revision (h : IsLife life) (i : Nat) (inside : i < life.length) :
    (life.get ⟨i, inside⟩).state.revision.val = i + 1 := by
  induction i with
  | zero =>
      have first := h.1 life[0] (by rw [List.head?_eq_getElem?, List.getElem?_eq_getElem inside]; rfl)
      exact revision_of_transition first
  | succ i ih =>
      have step := List.isChain_iff_getElem.mp h.2 i (by omega)
      have before := ih (by omega)
      rw [List.get_eq_getElem] at before ⊢
      rw [revision_of_transition step, Option.elim_some, before]

theorem first (h : IsLife life) : ∀ c ∈ life.head?, c.kind = .provision := fun c member => (h.1 c member).1

end IsLife

/-- What a life promises, over all its commits. -/
structure LifeLaws (life : List StorageCommit) : Prop where
  /-- It starts with a provision, and no later commit is one. -/
  provisioned : ∀ i (inside : i < life.length), (life.get ⟨i, inside⟩).kind = .provision ↔ i = 0
  /-- Revisions count up from 1. -/
  revision : ∀ i (inside : i < life.length), (life.get ⟨i, inside⟩).state.revision.val = i + 1
  /-- The writer epoch never falls. -/
  epoch : life.Pairwise fun a b => a.state.writerEpoch.val ≤ b.state.writerEpoch.val
  /-- The writer epoch rises at each attachment. -/
  rises : life.Pairwise fun a b => b.kind.Attaches → a.state.writerEpoch.val < b.state.writerEpoch.val
  /-- An attachment has a fencing epoch that no earlier one of the storage had. -/
  fenced : life.Pairwise fun a b => b.kind.Attaches → ∀ x ∈ a.state.attachment, ∀ y ∈ b.state.attachment,
    x.fencingEpoch.val < y.fencingEpoch.val
  /-- Attachments of equal fencing epochs are one attachment. -/
  fencing_injective : life.Pairwise fun a b => ∀ x ∈ a.state.attachment, ∀ y ∈ b.state.attachment,
    x.fencingEpoch.val = y.fencingEpoch.val → x = y
  /-- The identity fields never change. -/
  identity : life.Pairwise fun a b => SameIdentity a.state b.state
  /-- Nothing comes after a destroyed state. -/
  destroyed : life.Pairwise fun a _ => a.state.lifecycle ≠ .destroyed

theorem IsLife.laws {life : List StorageCommit} (h : IsLife life) : LifeLaws life where
  provisioned i inside := by
    constructor
    · intro provision
      by_contra later
      have step := List.pairwise_iff_getElem.mp h.succeeds 0 i (by omega) inside (by omega)
      exact step.notProvision provision
    · rintro rfl
      exact h.first _ (by rw [List.head?_eq_getElem?, List.getElem?_eq_getElem inside]; rfl)
  revision := h.revision
  epoch := h.succeeds.imp Succeeds.epoch
  rises := h.succeeds.imp Succeeds.rises
  fenced := h.succeeds.imp fun step attaches x left y right => by
    rw [Succeeds.fencing left, Succeeds.fencing right]
    exact step.rises attaches
  fencing_injective := h.succeeds.imp fun step x left y right same => by
    exact step.fencing_injective left right same
  identity := h.succeeds.imp Succeeds.identity
  destroyed := h.succeeds.imp Succeeds.live

end PortableCodex.ProviderState
