import PortableCodex.SymlinkWalk.Walk
import PortableCodex.ProviderState.CanonicalLaws

/-!
Where the walk along a link ends, and what it looks at on the way.

`Resolves` is the resolution of paths by a file system: it counts the links that it expands and lists the
places that it enters. The walk ends where the file system does, within its bound on links, and its caller
has checked every place that was entered. Where the walk begins nothing is checked, and an absolute link
begins at the root; so no absolute link reaches what it is not to reach exactly when the root is none of it.
-/

namespace PortableCodex.SymlinkWalk

open Js StoppedTree
open ProviderState (ensure)

/-! ### Places -/

section Places

variable {fs : FileSystem} {name : Bytes} {place : Place} {item : Item}

theorem isDirectory_root (fs : FileSystem) : fs.IsDirectory [] := ⟨fs.root, rfl, fs.directory⟩

/-- What has an object below it is a directory. -/
theorem lstat_cons (found : fs.lstat (name :: place) = some item) : ∃ directory entries,
    fs.lstat place = some directory ∧ directory.entries? = some entries ∧ entries.lookup name = some item := by
  obtain ⟨directory, above, inside⟩ := Option.bind_eq_some_iff.mp found
  obtain ⟨entries, listed, inside⟩ := Option.bind_eq_some_iff.mp inside
  exact ⟨directory, entries, above, listed, inside⟩

theorem isDirectory_above (found : fs.lstat (name :: place) = some item) : fs.IsDirectory place := by
  obtain ⟨directory, entries, above, listed, -⟩ := lstat_cons found
  refine ⟨directory, above, ?_⟩
  unfold Item.isDirectory
  rw [listed]
  rfl

theorem isDirectory_tail (h : fs.IsDirectory place) : fs.IsDirectory place.tail := by
  cases place with
  | nil => exact h
  | cons name place =>
    obtain ⟨item, found, -⟩ := h
    exact isDirectory_above found

end Places

/-! ### Resolution -/

/-- Where a file system ends that follows components from a place: the links that it expands, the place, and
the places that it enters on the way. -/
inductive Resolves (fs : FileSystem) : Nat → Place → List Bytes → Place → List Place → Prop where
  | done {place} : Resolves fs 0 place [] place []
  | here {links place component pending last entered} : component = [] ∨ component = [46] →
      fs.IsDirectory place → Resolves fs links place pending last entered →
      Resolves fs links place (component :: pending) last entered
  | parent {links place pending last entered} : fs.IsDirectory place →
      Resolves fs links place.tail pending last entered →
      Resolves fs links place ([46, 46] :: pending) last (place.tail :: entered)
  | entry {links place component pending last entered item} :
      component ≠ [] → component ≠ [46] → component ≠ [46, 46] →
      fs.lstat (component :: place) = some item → (∀ identity target, item ≠ .symlink identity target) →
      Resolves fs links (component :: place) pending last entered →
      Resolves fs links place (component :: pending) last ((component :: place) :: entered)
  | relative {links place component pending last entered identity target} :
      component ≠ [] → component ≠ [46] → component ≠ [46, 46] →
      fs.lstat (component :: place) = some (.symlink identity target) → (∀ rest, target ≠ 47 :: rest) →
      Resolves fs links place (target.splitOn 47 ++ pending) last entered →
      Resolves fs (links + 1) place (component :: pending) last ((component :: place) :: entered)
  | absolute {links place component pending last entered identity rest} :
      component ≠ [] → component ≠ [46] → component ≠ [46, 46] →
      fs.lstat (component :: place) = some (.symlink identity (47 :: rest)) →
      Resolves fs links [] (rest.splitOn 47 ++ pending) last entered →
      Resolves fs (links + 1) place (component :: pending) last ((component :: place) :: [] :: entered)

section Unique

variable {fs : FileSystem} {links others : Nat} {place last other : Place} {component : Bytes}
  {pending : List Bytes} {entered others' : List Place}

/-- What a file system does with a component that names an entry. -/
theorem Resolves.named (some' : component ≠ []) (dot : component ≠ [46]) (dots : component ≠ [46, 46])
    (h : Resolves fs links place (component :: pending) last entered) :
    ∃ item, fs.lstat (component :: place) = some item ∧
      (((∀ identity target, item ≠ .symlink identity target) ∧ ∃ rest, entered = (component :: place) :: rest ∧
          Resolves fs links (component :: place) pending last rest) ∨
        (∃ identity target, item = .symlink identity target ∧ (∀ rest, target ≠ 47 :: rest) ∧
          ∃ count rest, links = count + 1 ∧ entered = (component :: place) :: rest ∧
            Resolves fs count place (target.splitOn 47 ++ pending) last rest) ∨
        ∃ identity target, item = .symlink identity (47 :: target) ∧
          ∃ count rest, links = count + 1 ∧ entered = (component :: place) :: [] :: rest ∧
            Resolves fs count [] (target.splitOn 47 ++ pending) last rest) := by
  cases h with
  | here here _ _ => exact absurd here (not_or.mpr ⟨some', dot⟩)
  | parent _ _ => exact absurd rfl dots
  | entry _ _ _ found plain rest => exact ⟨_, found, .inl ⟨plain, _, rfl, rest⟩⟩
  | relative _ _ _ found relative rest =>
    exact ⟨_, found, .inr (.inl ⟨_, _, rfl, relative, _, _, rfl, rfl, rest⟩)⟩
  | absolute _ _ _ found rest => exact ⟨_, found, .inr (.inr ⟨_, _, rfl, _, _, rfl, rfl, rest⟩)⟩

/-- A file system resolves a path in one way. -/
theorem Resolves.unique (h : Resolves fs links place pending last entered)
    (again : Resolves fs others place pending other others') : links = others ∧ last = other ∧ entered = others' := by
  induction h generalizing others other others' with
  | done =>
    cases again
    exact ⟨rfl, rfl, rfl⟩
  | here component _ _ ih =>
    cases again with
    | here _ _ rest => exact ih rest
    | parent _ _ => rcases component with never | never <;> cases never
    | entry some' dot _ _ _ _ => exact absurd component (not_or.mpr ⟨some', dot⟩)
    | relative some' dot _ _ _ _ => exact absurd component (not_or.mpr ⟨some', dot⟩)
    | absolute some' dot _ _ _ => exact absurd component (not_or.mpr ⟨some', dot⟩)
  | parent _ _ ih =>
    cases again with
    | here component _ _ => rcases component with never | never <;> cases never
    | parent _ rest =>
      obtain ⟨count, place, same⟩ := ih rest
      exact ⟨count, place, by rw [same]⟩
    | entry _ _ dots _ _ _ => exact absurd rfl dots
    | relative _ _ dots _ _ _ => exact absurd rfl dots
    | absolute _ _ dots _ _ => exact absurd rfl dots
  | entry some' dot dots found plain _ ih =>
    obtain ⟨item, found', cases'⟩ := again.named some' dot dots
    obtain rfl := Option.some.inj (found.symm.trans found')
    rcases cases' with ⟨-, rest, rfl, resolved⟩ | ⟨identity, target, same, -⟩ | ⟨identity, target, same, -⟩
    · obtain ⟨count, place, same⟩ := ih resolved
      exact ⟨count, place, by rw [same]⟩
    · exact absurd same (plain _ _)
    · exact absurd same (plain _ _)
  | relative some' dot dots found relative _ ih =>
    obtain ⟨item, found', cases'⟩ := again.named some' dot dots
    obtain rfl := Option.some.inj (found.symm.trans found')
    rcases cases' with ⟨plain, -⟩ | ⟨_, _, same, -, count, rest, rfl, rfl, resolved⟩ | ⟨_, rest, same, -⟩
    · exact absurd rfl (plain _ _)
    · cases same
      obtain ⟨rfl, rfl, rfl⟩ := ih resolved
      exact ⟨rfl, rfl, rfl⟩
    · cases same
      exact absurd rfl (relative _)
  | absolute some' dot dots found _ ih =>
    obtain ⟨item, found', cases'⟩ := again.named some' dot dots
    obtain rfl := Option.some.inj (found.symm.trans found')
    rcases cases' with ⟨plain, -⟩ | ⟨_, _, same, relative, -⟩ | ⟨_, _, same, count, rest, rfl, rfl, resolved⟩
    · exact absurd rfl (plain _ _)
    · cases same
      exact absurd rfl (relative _)
    · cases same
      obtain ⟨rfl, rfl, rfl⟩ := ih resolved
      exact ⟨rfl, rfl, rfl⟩

end Unique

/-! ### The walk -/

section Walk

variable {unicode : Unicode} {fs : FileSystem} {checks : Checks}

/-- Every object on the way down to a place, but the root, has passed the check of its metadata. -/
def Inspected (fs : FileSystem) (checks : Checks) (place : Place) : Prop :=
  ∀ above, above <:+ place → above ≠ [] → ∃ item, fs.lstat above = some item ∧ checks.validateMetadata above item = true

theorem inspected_root : Inspected fs checks [] := by
  intro above suffix nonempty
  exact absurd (List.suffix_nil.mp suffix) nonempty

theorem Inspected.tail {place : Place} (h : Inspected fs checks place) : Inspected fs checks place.tail :=
  fun above suffix => h above (suffix.trans (List.tail_suffix place))

theorem Inspected.cons {name : Bytes} {place : Place} {item : Item} (h : Inspected fs checks place)
    (found : fs.lstat (name :: place) = some item) (checked : checks.validateMetadata (name :: place) item = true) :
    Inspected fs checks (name :: place) := by
  intro above suffix nonempty
  rcases List.suffix_cons_iff.mp suffix with rfl | suffix
  · exact ⟨item, found, checked⟩
  · exact h above suffix nonempty

/-- What a walk that ends has done: the file system ends there, and the caller has checked what it enters. -/
def Walked (fs : FileSystem) (checks : Checks) (links : Nat) (place : Place) (pending : List Bytes)
    (last : Place) : Prop :=
  ∃ count entered, count ≤ links ∧ Resolves fs count place pending last entered ∧
    (∀ passed ∈ entered, checks.validateCandidate passed = true) ∧
    (Inspected fs checks place → ∀ passed ∈ entered, Inspected fs checks passed)

theorem Walked.here {links : Nat} {place last : Place} {component : Bytes} {pending : List Bytes}
    (here : component = [] ∨ component = [46]) (directory : fs.IsDirectory place)
    (h : Walked fs checks links place pending last) : Walked fs checks links place (component :: pending) last := by
  obtain ⟨count, entered, bound, resolved, checked⟩ := h
  exact ⟨count, entered, bound, .here here directory resolved, checked⟩

/-- The walk enters a place, and goes on from there or from where it was. -/
theorem Walked.enter {links count : Nat} {place next last passed : Place} {component : Bytes}
    {pending : List Bytes} {entered : List Place} (bound : count ≤ links)
    (resolved : Resolves fs count place (component :: pending) last (passed :: entered))
    (candidate : checks.validateCandidate passed = true)
    (inspected : Inspected fs checks place → Inspected fs checks passed)
    (goes : Inspected fs checks place → Inspected fs checks next)
    (validated : ∀ passed ∈ entered, checks.validateCandidate passed = true)
    (inspects : Inspected fs checks next → ∀ passed ∈ entered, Inspected fs checks passed) :
    Walked fs checks links place (component :: pending) last := by
  refine ⟨count, _, bound, resolved, ?_, ?_⟩
  · intro other inside
    rcases List.mem_cons.mp inside with rfl | later
    · exact candidate
    · exact validated other later
  · intro start other inside
    rcases List.mem_cons.mp inside with rfl | later
    · exact inspected start
    · exact inspects (goes start) other later

theorem walkPending_sound {follow : Place → List Bytes → Option Place} {links : Nat}
    (followed : ∀ current pending last, follow current pending = some last → fs.IsDirectory current →
      ∃ fewer, fewer + 1 = links ∧ Walked fs checks fewer current pending last)
    {current : Place} {currentIsDirectory : Bool} {pending : List Bytes} {last : Place}
    (directory : currentIsDirectory = true → fs.IsDirectory current)
    (h : walkPending unicode fs checks follow current currentIsDirectory pending = some last) :
    Walked fs checks links current pending last := by
  induction pending generalizing current currentIsDirectory with
  | nil =>
    obtain rfl := Option.some.inj h
    exact ⟨0, [], Nat.zero_le _, .done, fun _ never => (by cases never), fun _ _ never => (by cases never)⟩
  | cons component pending ih =>
    unfold walkPending at h
    split at h
    · rename_i here
      obtain ⟨_, isDirectory, h⟩ := Option.bind_eq_some_iff.mp h
      have there := directory (ProviderState.ensure_eq_some_iff.mp isDirectory)
      exact .here here there (ih directory h)
    · rename_i elsewhere
      obtain ⟨some', dot⟩ := not_or.mp elsewhere
      split at h
      · rename_i dots
        subst dots
        obtain ⟨_, isDirectory, h⟩ := Option.bind_eq_some_iff.mp h
        obtain ⟨_, candidate, h⟩ := Option.bind_eq_some_iff.mp h
        have there := directory (ProviderState.ensure_eq_some_iff.mp isDirectory)
        obtain ⟨count, entered, bound, resolved, validated, inspects⟩ :=
          ih (fun _ => isDirectory_tail there) h
        exact .enter bound (.parent there resolved) (ProviderState.ensure_eq_some_iff.mp candidate)
          Inspected.tail Inspected.tail validated inspects
      · rename_i dots
        obtain ⟨_, isDirectory, h⟩ := Option.bind_eq_some_iff.mp h
        obtain ⟨_, -, h⟩ := Option.bind_eq_some_iff.mp h
        obtain ⟨_, candidate, h⟩ := Option.bind_eq_some_iff.mp h
        obtain ⟨item, found, h⟩ := Option.bind_eq_some_iff.mp h
        obtain ⟨_, checked, h⟩ := Option.bind_eq_some_iff.mp h
        have there := directory (ProviderState.ensure_eq_some_iff.mp isDirectory)
        have candidate := ProviderState.ensure_eq_some_iff.mp candidate
        have inspected (start : Inspected fs checks current) : Inspected fs checks (component :: current) :=
          start.cons found (ProviderState.ensure_eq_some_iff.mp checked)
        split at h
        · rename_i identity target
          obtain ⟨_, -, h⟩ := Option.bind_eq_some_iff.mp h
          split at h
          · rename_i rest
            -- the root is entered behind the link
            obtain ⟨_, root, h⟩ := Option.bind_eq_some_iff.mp h
            have root := ProviderState.ensure_eq_some_iff.mp root
            obtain ⟨fewer, rfl, count, entered, bound, resolved, validated, inspects⟩ :=
              followed _ _ _ h (isDirectory_root fs)
            refine .enter (Nat.succ_le_succ bound) (.absolute some' dot dots found resolved) candidate
              inspected (fun _ => inspected_root) ?_ ?_
            · intro passed inside
              rcases List.mem_cons.mp inside with rfl | later
              · exact root
              · exact validated passed later
            · intro start passed inside
              rcases List.mem_cons.mp inside with rfl | later
              · exact start
              · exact inspects start passed later
          · rename_i relative
            obtain ⟨fewer, rfl, count, entered, bound, resolved, validated, inspects⟩ := followed _ _ _ h there
            exact .enter (Nat.succ_le_succ bound) (.relative some' dot dots found (fun rest same => relative rest same)
              resolved) candidate inspected id validated inspects
        · rename_i plain
          have child (isDirectory : item.isDirectory = true) : fs.IsDirectory (component :: current) :=
            ⟨item, found, isDirectory⟩
          obtain ⟨count, entered, bound, resolved, validated, inspects⟩ := ih child h
          exact .enter bound (.entry some' dot dots found plain resolved) candidate inspected inspected validated
            inspects

theorem walkLinks_sound {links : Nat} {current : Place} {pending : List Bytes} {last : Place}
    (directory : fs.IsDirectory current) (h : walkLinks unicode fs checks links current pending = some last) :
    Walked fs checks links current pending last := by
  induction links generalizing current pending last with
  | zero => exact walkPending_sound (fun _ _ _ never => by cases never) (fun _ => directory) h
  | succ links ih =>
    exact walkPending_sound (fun _ _ _ followed directory => ⟨links, rfl, ih directory followed⟩)
      (fun _ => directory) h

end Walk

end PortableCodex.SymlinkWalk
