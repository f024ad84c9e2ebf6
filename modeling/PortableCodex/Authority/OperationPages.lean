import PortableCodex.Authority.OperationIndexRun
import PortableCodex.ProviderState.Adoption

/-!
The pages in which a state authority lists its rows: `readOperationsPage` and `readPreparedOperationsPage`.

A page is read by its own query from a cursor on, one row more than is returned. In step with a provider every page
is accepted, and the pages that follow each other are all rows once (`pageLaws`).
-/

namespace PortableCodex.Authority

open Js ProviderState Paging

/-- `MAX_PAGE_SIZE` -/
def maxPageSize : Nat := 4

/-! ### One page -/

/-- The rows of a page query: those beyond the cursor in the order of their ids, one more than asked for. -/
def pageQuery (rows : List OperationRow) (rowId : OperationRow → OpaqueId) (afterId : Option OpaqueId)
    (limit : Nat) : List OperationRow :=
  (beyond (sortById rowId rows) rowId afterId).take (limit + 1)

/-- What `readOperationsPageInTransaction` and `readPreparedOperationsPageInTransaction` do with their rows. -/
def readPageInTransaction (head : LedgerHead) (rows : List OperationRow) (rowId : OperationRow → OpaqueId)
    (afterId : Option OpaqueId) (limit : Nat) : Option (Page OpaqueId Operation) := do
  ensure (∀ row ∈ rows, VisibleAtHead head row)
  ensure ((afterId.toList ++ rows.map rowId).IsChain fun previous next => previous.val < next.val)
  some {
    nextAfterId := if limit < rows.length then (rows.take limit).getLast?.map rowId else none
    records := (rows.take limit).map (·.record) }

namespace OperationIndex

variable (index : OperationIndex)

/-- The checks before a read: the head is the expected one, of version 3, and so are the rows. -/
def requireIndex (expectedHead : LedgerHead) : Option Unit :=
  ensure (index.head = expectedHead ∧ expectedHead.contractVersion = .v3 ∧
    index.operationIndexStateRevision = expectedHead.stateRevision)

def readOperation (expectedHead : LedgerHead) (operationId : OpaqueId) : Option (Option Operation) := do
  index.requireIndex expectedHead
  match index.operations.get? operationId with
  | none => some none
  | some row => do
      ensure (VisibleAtHead index.head row)
      some (some row.record)

def readOperationsPage (expectedHead : LedgerHead) (afterOperationId : Option OpaqueId) (limit : Nat) :
    Option (Page OpaqueId Operation) := do
  ensure (1 ≤ limit ∧ limit ≤ maxPageSize)
  index.requireIndex expectedHead
  let rows := pageQuery index.operations.values (·.record.operationId) afterOperationId limit
  readPageInTransaction index.head rows (·.record.operationId) afterOperationId limit

/-- The rows that are prepared. -/
def preparedRows : List OperationRow := index.operations.values.filter fun row => row.record.commit = none

def readPreparedOperationsPage (expectedHead : LedgerHead) (afterStorageId : Option OpaqueId) (limit : Nat) :
    Option (Page OpaqueId Operation) := do
  ensure (1 ≤ limit ∧ limit ≤ maxPageSize)
  index.requireIndex expectedHead
  let rows := pageQuery index.preparedRows (·.record.storageId) afterStorageId limit
  ensure (∀ row ∈ rows, row.record.commit = none)
  readPageInTransaction index.head rows (·.record.storageId) afterStorageId limit

end OperationIndex

/-! ### Exact pages -/

section Pages

variable {rows : List OperationRow} {rowId : OperationRow → OpaqueId} {limit : Nat}

/-- The page of the rows beyond a cursor. -/
def exactPage (rows : List OperationRow) (rowId : OperationRow → OpaqueId) (limit : Nat)
    (afterId : Option OpaqueId) : Page OpaqueId Operation where
  nextAfterId :=
    if limit < (beyond rows rowId afterId).length then ((beyond rows rowId afterId).take limit).getLast?.map rowId
    else none
  records := ((beyond rows rowId afterId).take limit).map (·.record)

theorem ascends_of_sorted (sorted : rows.Pairwise fun a b => rowId a < rowId b) (afterId : Option OpaqueId)
    (count : Nat) : (afterId.toList ++ ((beyond rows rowId afterId).take count).map rowId).IsChain
      fun previous next => previous.val < next.val := by
  have whole : (afterId.toList ++ (beyond rows rowId afterId).map rowId).Pairwise fun previous next =>
      previous.val < next.val := beyond_ascends sorted afterId
  refine (whole.sublist ?_).isChain
  exact ((List.take_sublist count _).map rowId).append_left _

theorem mem_beyond {row : OperationRow} {afterId : Option OpaqueId} (inside : row ∈ beyond rows rowId afterId) :
    row ∈ rows := by
  cases afterId with
  | none => exact inside
  | some after => exact (List.mem_filter.mp inside).1

/-- The page that is read is the exact one. -/
theorem readPageInTransaction_eq {head : LedgerHead} (visible : ∀ row ∈ rows, VisibleAtHead head row)
    (sorted : (sortById rowId rows).Pairwise fun a b => rowId a < rowId b) (afterId : Option OpaqueId) :
    readPageInTransaction head (pageQuery rows rowId afterId limit) rowId afterId limit =
      some (exactPage (sortById rowId rows) rowId limit afterId) := by
  refine read_then (ensure_pos ?_) (read_then (ensure_pos (ascends_of_sorted sorted afterId _)) ?_)
  · intro row inside
    exact visible row ((sortById_perm rowId rows).mem_iff.mp (mem_beyond (List.mem_of_mem_take inside)))
  · have short : (pageQuery rows rowId afterId limit).take limit =
        (beyond (sortById rowId rows) rowId afterId).take limit := by
      rw [pageQuery, List.take_take, min_eq_left (Nat.le_succ limit)]
    have more : limit < (pageQuery rows rowId afterId limit).length ↔
        limit < (beyond (sortById rowId rows) rowId afterId).length := by
      rw [pageQuery, List.length_take]
      omega
    rw [short]
    simp only [more]
    rfl

theorem exactPage_exact (sorted : rows.Pairwise fun a b => rowId a < rowId b) (positive : 0 < limit) :
    ExactReader limit (fun afterId => (beyond rows rowId afterId).map (·.record)) (exactPage rows rowId limit) := by
  constructor
  · intro afterId
    exact List.map_take
  · intro afterId
    rw [← List.map_drop, List.map_eq_nil_iff, List.drop_eq_nil_iff, exactPage]
    dsimp only
    split
    · rename_i more
      have filled : (beyond rows rowId afterId).take limit ≠ [] := by
        rw [← List.length_pos_iff, List.length_take]
        omega
      rw [List.getLast?_eq_some_getLast filled]
      simp only [Option.map_some, reduceCtorEq, false_iff]
      omega
    · simp only [true_iff]
      omega
  · intro afterId next more
    rw [← List.map_drop]
    rw [exactPage] at more
    dsimp only at more
    split at more
    · rename_i long
      -- the rows beyond a cursor are those behind a place
      rw [← drop_partitionPoint sorted afterId] at more long ⊢
      generalize partitionPoint (notBeyond afterId rowId) rows 0 rows.length le_rfl = place at more long ⊢
      rw [List.length_drop] at long
      rw [List.getLast?_take, if_neg (by omega), List.getElem?_drop, List.getElem?_eq_getElem (by omega)] at more
      simp only [Option.some_or, Option.map_some, Option.some.injEq] at more
      subst more
      rw [beyond_recordId sorted, List.drop_drop]
      congr 2
      omega
    · cases more

end Pages

/-! ### Listing the rows -/

section Listing

variable {cache : GenerationCache} {index : OperationIndex}

theorem InStep.requireIndex (h : InStep cache index) : index.requireIndex cache.head = some () :=
  ensure_pos ⟨h.mirrors.head_eq, h.version, h.mirrors.revision_eq⟩

theorem InStep.operations_sorted (h : InStep cache index) :
    (sortById (·.record.operationId) index.operations.values).Pairwise fun a b =>
      a.record.operationId < b.record.operationId :=
  sortById_sorted (fun row : OperationRow => row.record.operationId) _ h.mirrors.keyed.nodup

theorem InStep.prepared_sorted (h : InStep cache index) :
    (sortById (·.record.storageId) index.preparedRows).Pairwise fun a b => a.record.storageId < b.record.storageId :=
  sortById_sorted (fun row : OperationRow => row.record.storageId) _
    (h.mirrors.preparedRows_nodup h.backed.reached.invariant)

theorem InStep.readOperationsPage (h : InStep cache index) {limit : Nat} (positive : 1 ≤ limit)
    (bound : limit ≤ maxPageSize) (afterId : Option OpaqueId) :
    index.readOperationsPage cache.head afterId limit =
      some (exactPage (sortById (·.record.operationId) index.operations.values) (·.record.operationId) limit
        afterId) :=
  read_then (ensure_pos ⟨positive, bound⟩) (read_then h.requireIndex
    (readPageInTransaction_eq (fun _ inside => h.mirrors.mem_values inside) h.operations_sorted afterId))

theorem InStep.readPreparedOperationsPage (h : InStep cache index) {limit : Nat} (positive : 1 ≤ limit)
    (bound : limit ≤ maxPageSize) (afterId : Option OpaqueId) :
    index.readPreparedOperationsPage cache.head afterId limit =
      some (exactPage (sortById (·.record.storageId) index.preparedRows) (·.record.storageId) limit afterId) := by
  have prepared {row : OperationRow} (inside : row ∈ index.preparedRows) :
      row ∈ index.operations.values ∧ row.record.commit = none := by
    rw [OperationIndex.preparedRows, List.mem_filter, decide_eq_true_eq] at inside
    exact inside
  refine read_then (ensure_pos ⟨positive, bound⟩) (read_then h.requireIndex (read_then (ensure_pos ?_) ?_))
  · intro row inside
    have member := mem_beyond (List.mem_of_mem_take inside)
    exact (prepared ((sortById_perm _ _).mem_iff.mp member)).2
  · exact readPageInTransaction_eq (fun row inside => h.mirrors.mem_values (prepared inside).1) h.prepared_sorted
      afterId

/-- The records of the prepared rows, by storage, are what the provider projects. -/
theorem InStep.preparedRecords (h : InStep cache index) :
    (sortById (·.record.storageId) index.preparedRows).map (·.record) =
      sortById (·.storageId) (preparedOperations cache.state) :=
  map_sortById (fun row : OperationRow => row.record)
    (fun operation : Operation => operation.storageId) (h.mirrors.preparedRows_nodup h.backed.reached.invariant)
    (h.mirrors.prepared h.backed.reached.invariant)
    (OperationIndex.preparedStorages_nodup h.backed.reached.invariant)

/-- The pages of a reader, followed from the first one. -/
def Lists (readPage : Option OpaqueId → Option (Page OpaqueId Operation)) (limit : Nat)
    (operations : List Operation) : Prop :=
  ∃ page, (∀ afterId, readPage afterId = some (page afterId)) ∧
    ∃ pages, (∀ steps, pages.length ≤ steps → follow page steps none = some pages) ∧
      pages.flatMap (·.records) = operations ∧ pages.length ≤ operations.length / limit + 1 ∧
      ∀ page ∈ pages, page.records.length ≤ limit

/-- What the authority lists of its rows. -/
structure PageLaws (cache : GenerationCache) (index : OperationIndex) : Prop where
  /-- The pages of prepared operations are the prepared operations of the provider, by storage. -/
  prepared : ∀ limit, 1 ≤ limit → limit ≤ maxPageSize → ∃ operations,
    sortedPreparedCheckpointRecords cache.state = some operations ∧
      Lists (fun afterId => index.readPreparedOperationsPage cache.head afterId limit) limit operations
  /-- The pages of operations are all rows, by operation. -/
  operations : ∀ limit, 1 ≤ limit → limit ≤ maxPageSize → ∃ operations : List Operation,
    (operations.Pairwise fun a b => a.operationId.val < b.operationId.val) ∧
      (∀ operation, operation ∈ operations ↔
        index.readOperation cache.head operation.operationId = some (some operation)) ∧
      Lists (fun afterId => index.readOperationsPage cache.head afterId limit) limit operations

theorem InStep.readOperation (h : InStep cache index) (operationId : OpaqueId) :
    index.readOperation cache.head operationId =
      some ((index.operations.get? operationId).map OperationRow.record) := by
  refine read_then h.requireIndex ?_
  cases found : index.operations.get? operationId with
  | none => rfl
  | some row => exact read_then (ensure_pos (h.mirrors.mem_values (JsMap.mem_values.mpr ⟨_, found⟩))) rfl

/-- In every run the pages that the authority lists, of any allowed size, are its prepared rows and all of its rows,
once each and in order. -/
theorem pageLaws (run : IndexedRun cache index) : PageLaws cache index := by
  have inStep := run.inStep
  constructor
  · intro limit positive bound
    obtain ⟨pages, reads, records, count, short⟩ :=
      (exactPage_exact inStep.prepared_sorted positive).exists_pages positive none
    change _ = (sortById _ index.preparedRows).map _ at records
    rw [inStep.preparedRecords] at records
    refine ⟨_, OperationIndex.sortedPreparedCheckpointRecords_eq inStep.backed.reached.invariant, _,
      inStep.readPreparedOperationsPage positive bound, pages, reads, records, ?_, short⟩
    change _ ≤ ((sortById _ index.preparedRows).map _).length / limit + 1 at count
    rwa [inStep.preparedRecords] at count
  · intro limit positive bound
    obtain ⟨pages, reads, records, count, short⟩ :=
      (exactPage_exact inStep.operations_sorted positive).exists_pages positive none
    refine ⟨(sortById (·.record.operationId) index.operations.values).map (·.record), ?_, ?_, _,
      inStep.readOperationsPage positive bound, pages, reads, records, count, short⟩
    · exact List.pairwise_map.mpr inStep.operations_sorted
    · intro operation
      rw [inStep.readOperation, Option.some.injEq, Option.map_eq_some_iff, List.mem_map]
      constructor
      · rintro ⟨row, inside, rfl⟩
        exact ⟨row, inStep.mirrors.keyed.mem_values.mp ((sortById_perm _ _).mem_iff.mp inside), rfl⟩
      · rintro ⟨row, found, rfl⟩
        exact ⟨row, (sortById_perm _ _).mem_iff.mpr (JsMap.mem_values.mpr ⟨_, found⟩), rfl⟩

end Listing

/-- The pages behind an attach and a checkpoint. -/
theorem pageLaws_attached : ∃ cache index, PageLaws cache index ∧
    cache.state.storages.get? firstStorage.storageId = some checkpointedStorage := by
  obtain ⟨cache, index, run, held⟩ := exists_attachedRun
  exact ⟨cache, index, pageLaws run, held⟩

end PortableCodex.Authority
