import PortableCodex.StoppedTree.CopyLaws

/-!
The order in which a tree is walked.

A walk visits a directory before its entries and the entries in the order of their names. Its visits are
the objects of the tree (`preorder_perm`), and where the names of every directory differ they come in the
order of their paths (`preorder_sorted`). So two walks that visit the same objects visit them in the same
order, whatever order the directories list their entries in.
-/

open scoped List

namespace PortableCodex.StoppedTree

open Js

/-- A path below an object, the outermost name first. -/
abbrev Below := List JsString

def prepend {α : Type} (name : JsString) (visit : Below × α) : Below × α := (name :: visit.1, visit.2)

mutual

/-- The objects of a tree with their paths, as the directories list them. -/
def Node.visits : Node → List (Below × Node)
  | .directory mode entries => ([], .directory mode entries) :: entries.visits
  | .file mode nlink bytes => [([], .file mode nlink bytes)]
  | .symlink nlink target => [([], .symlink nlink target)]
  | .special => [([], .special)]

def Entries.visits : Entries → List (Below × Node)
  | .nil => []
  | .cons name node rest => node.visits.map (prepend (decodeUtf8 name)) ++ rest.visits

end

mutual

/-- The objects of a tree in the order of a walk. -/
def Node.preorder : Node → List (Below × Node)
  | .directory mode entries => ([], .directory mode entries) ::
      (sortByKey entries.walks).flatMap fun walk => walk.2.map (prepend walk.1)
  | .file mode nlink bytes => [([], .file mode nlink bytes)]
  | .symlink nlink target => [([], .symlink nlink target)]
  | .special => [([], .special)]

/-- The walks of the entries, as the directory lists them. -/
def Entries.walks : Entries → List (JsString × List (Below × Node))
  | .nil => []
  | .cons name node rest => (decodeUtf8 name, node.preorder) :: rest.walks

end

/-! ### Order -/

mutual

/-- The names of every directory differ. -/
def Node.Distinct : Node → Prop
  | .directory _ entries => (entries.walks.map Prod.fst).Nodup ∧ entries.Distinct
  | .file _ _ _ => True
  | .symlink _ _ => True
  | .special => True

def Entries.Distinct : Entries → Prop
  | .nil => True
  | .cons _ node rest => node.Distinct ∧ rest.Distinct

end

mutual

theorem Node.preorder_perm : ∀ node : Node, node.preorder ~ node.visits
  | .directory mode entries => by
    rw [Node.preorder, Node.visits]
    refine List.Perm.cons _ (List.Perm.trans ?_ entries.walks_perm)
    exact (sortByKey_perm _).flatMap_right _
  | .file _ _ _ => by rw [Node.preorder, Node.visits]
  | .symlink _ _ => by rw [Node.preorder, Node.visits]
  | .special => by rw [Node.preorder, Node.visits]

theorem Entries.walks_perm : ∀ entries : Entries,
    (entries.walks.flatMap fun walk => walk.2.map (prepend walk.1)) ~ entries.visits
  | .nil => by
    rw [Entries.walks, Entries.visits, List.flatMap_nil]
  | .cons name node rest => by
    rw [Entries.walks, Entries.visits, List.flatMap_cons]
    exact (node.preorder_perm.map _).append rest.walks_perm

end

theorem pairwise_prepend {α : Type} {visits : List (Below × α)} (name : JsString)
    (sorted : visits.Pairwise fun a b => a.1 < b.1) :
    (visits.map (prepend name)).Pairwise fun a b => a.1 < b.1 := by
  rw [List.pairwise_map]
  exact sorted.imp fun less => List.cons_lt_cons_iff.mpr (.inr ⟨rfl, less⟩)

mutual

theorem Node.preorder_sorted : ∀ node : Node, node.Distinct → node.preorder.Pairwise fun a b => a.1 < b.1
  | .directory mode entries, distinct => by
    rw [Node.Distinct] at distinct
    obtain ⟨names, below⟩ := distinct
    rw [Node.preorder, List.pairwise_cons]
    constructor
    · intro visit member
      obtain ⟨walk, -, inside⟩ := List.mem_flatMap.mp member
      obtain ⟨other, -, rfl⟩ := List.mem_map.mp inside
      exact List.nil_lt_cons _ _
    · rw [List.pairwise_flatMap]
      constructor
      · intro walk member
        exact pairwise_prepend _ (entries.walks_sorted below walk ((sortByKey_perm _).mem_iff.mp member))
      · refine (sortByKey_sorted names).imp ?_
        intro first second less a inFirst b inSecond
        obtain ⟨a, -, rfl⟩ := List.mem_map.mp inFirst
        obtain ⟨b, -, rfl⟩ := List.mem_map.mp inSecond
        exact List.cons_lt_cons_iff.mpr (.inl less)
  | .file _ _ _, _ => by
    rw [Node.preorder]
    exact List.pairwise_singleton _ _
  | .symlink _ _, _ => by
    rw [Node.preorder]
    exact List.pairwise_singleton _ _
  | .special, _ => by
    rw [Node.preorder]
    exact List.pairwise_singleton _ _

theorem Entries.walks_sorted : ∀ entries : Entries, entries.Distinct → ∀ walk ∈ entries.walks,
    walk.2.Pairwise fun a b => a.1 < b.1
  | .nil, _ => by
    rw [Entries.walks]
    intro walk member
    cases member
  | .cons name node rest, distinct => by
    rw [Entries.Distinct] at distinct
    rw [Entries.walks, List.forall_mem_cons]
    exact ⟨node.preorder_sorted distinct.1, rest.walks_sorted distinct.2⟩

end

/-- What is sorted by its paths is determined by its elements. -/
theorem eq_of_sorted {α : Type} {visits others : List (Below × α)} (first : visits.Pairwise fun a b => a.1 < b.1)
    (second : others.Pairwise fun a b => a.1 < b.1) (same : ∀ visit, visit ∈ visits ↔ visit ∈ others) :
    visits = others := by
  have distinct {list : List (Below × α)} (sorted : list.Pairwise fun a b => a.1 < b.1) : list.Nodup :=
    sorted.imp fun less same => absurd (congrArg Prod.fst same) (ne_of_lt less)
  have perm : visits ~ others := (List.perm_ext_iff_of_nodup (distinct first) (distinct second)).mpr same
  exact perm.eq_of_pairwise (fun a b _ _ less greater => absurd less (lt_asymm greater)) first second

end PortableCodex.StoppedTree
