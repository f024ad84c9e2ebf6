import PortableCodex.CanonicalJson.Fields
import PortableCodex.Contracts.Mutation

/-!
The contracts of equal values.

The checks of the storage contracts accept a value as they accept its normal form, with the same outcome.
-/

namespace PortableCodex.Contracts

open Js ProviderState CanonicalJson

/-! ### Scalars -/

/-- A check that only accepts texts does not see the normal form. -/
theorem textCheck_reparse {A : Type} {f : JsValue → A} {refused : A}
    (others : ∀ v, (∀ s, v ≠ .string s) → f v = refused)
    (v : JsValue) : f (reparse v) = f v := by
  by_cases text : ∃ s, v = .string s
  · obtain ⟨s, rfl⟩ := text
    rfl
  · have other : ∀ s, v ≠ .string s := fun s same => text ⟨s, same⟩
    rw [others v other]
    apply others
    intro s same
    cases v with
    | null => cases same
    | bool b => cases same
    | string t => exact other t rfl
    | number n => cases n <;> cases same
    | array items =>
      rw [reparse_array] at same
      cases same
    | object members =>
      rw [reparse_object] at same
      cases same

theorem checkedText_reparse {P : JsString → Prop} [DecidablePred P] (v : JsValue) :
    checkedText P (reparse v) = checkedText P v := by
  refine @textCheck_reparse _ _ none ?_ v
  intro v other
  cases v with
  | string s => exact absurd rfl (other s)
  | _ => rfl

theorem isText_reparse (text : JsString) (v : JsValue) : isText text (reparse v) = isText text v := by
  refine @textCheck_reparse _ _ false ?_ v
  intro v other
  cases v with
  | string s => exact absurd rfl (other s)
  | _ => rfl

theorem fencingEpoch_reparse (v : JsValue) : fencingEpoch (reparse v) = fencingEpoch v := by
  refine @textCheck_reparse _ _ none ?_ v
  intro v other
  cases v with
  | string s => exact absurd rfl (other s)
  | _ => rfl

theorem mutationOperation_reparse (v : JsValue) : MutationOperation.read (reparse v) = MutationOperation.read v := by
  simp only [MutationOperation.read, isText_reparse]

theorem assertCheckpointClass_reparse (v : JsValue) : assertCheckpointClass (reparse v) = assertCheckpointClass v := by
  simp only [assertCheckpointClass, isText_reparse]

theorem safeInteger_reparse (v : JsValue) : safeInteger (reparse v) = safeInteger v := by
  cases v with
  | null => rfl
  | bool b => rfl
  | string s => rfl
  | number n =>
    cases n with
    | nan => rfl
    | infinity negative => rfl
    | finite negative d =>
      simp only [reparse_number, settleNumber, safeInteger, safeNat?]
      by_cases zero : d.mantissa = 0
      · simp only [zero, or_true]
      · have nonzero : (d.mantissa != 0) = true := bne_iff_ne.mpr zero
        rw [nonzero, Bool.and_true]
  | array items =>
    rw [reparse_array]
    rfl
  | object members =>
    rw [reparse_object]
    rfl

theorem isContractVersion_reparse (v : JsValue) : isContractVersion (reparse v) ↔ isContractVersion v := by
  rw [isContractVersion, isContractVersion, safeInteger_reparse]

/-! ### Records -/

/-- A reader of exactly these fields sees their normal forms. -/
theorem readFields_reparse {A : Type} {v : JsValue} (json : IsJson v) (keys : List JsString)
    {f : List JsValue → Option A}
    (fields : ∀ values, values.length = keys.length → (∀ w ∈ values, IsJson w) → f (values.map reparse) = f values) :
    (exactDataFields (reparse v) keys).bind f = (exactDataFields v keys).bind f := by
  rw [exactDataFields_reparse json]
  cases held : exactDataFields v keys with
  | none => rfl
  | some values => exact fields values (exactDataFields_length held) (isJson_fields json held)

theorem attachmentTarget_reparse {v : JsValue} (json : IsJson v) :
    attachmentTarget (reparse v) = attachmentTarget v := by
  refine readFields_reparse json _ ?_
  intro values length _
  obtain ⟨a, b, rfl⟩ := List.length_eq_two.mp length
  simp only [List.map_cons, List.map_nil, canonicalOpaqueId, checkedText_reparse, isText_reparse]

theorem checkpointTarget_reparse {v : JsValue} (json : IsJson v) :
    checkpointTarget (reparse v) = checkpointTarget v := by
  refine readFields_reparse json _ ?_
  intro values length _
  obtain ⟨a, b, c, rfl⟩ := List.length_eq_three.mp length
  simp only [List.map_cons, List.map_nil, canonicalOpaqueId, checkedText_reparse, isText_reparse]

theorem storageTarget_reparse {v : JsValue} (json : IsJson v) (storageId : OpaqueId) :
    storageTarget (reparse v) storageId = storageTarget v storageId := by
  refine readFields_reparse json _ ?_
  intro values length _
  obtain ⟨a, b, rfl⟩ := List.length_eq_two.mp length
  simp only [List.map_cons, List.map_nil, canonicalOpaqueId, checkedText_reparse, isText_reparse]

theorem assertStorageMutationTarget_reparse {v : JsValue} (json : IsJson v) (storageId : OpaqueId)
    (operation : MutationOperation) :
    assertStorageMutationTarget (reparse v) storageId operation =
      assertStorageMutationTarget v storageId operation := by
  cases operation with
  | attach => exact attachmentTarget_reparse json
  | checkpoint => exact checkpointTarget_reparse json
  | destroy => exact storageTarget_reparse json storageId
  | detach => exact attachmentTarget_reparse json
  | restore => exact checkpointTarget_reparse json

theorem assertStorageMutationRequest_reparse {v : JsValue} (json : IsJson v) :
    assertStorageMutationRequest (reparse v) = assertStorageMutationRequest v := by
  refine readFields_reparse json _ ?_
  intro values length json
  rcases values with _ | ⟨a, _ | ⟨b, _ | ⟨c, _ | ⟨d, _ | ⟨e, _ | ⟨f, _ | ⟨g, _ | ⟨h, _ | ⟨i, _ | ⟨j, _ | ⟨k, more⟩⟩⟩⟩⟩⟩⟩⟩⟩⟩⟩
  all_goals try cases length
  have place := assertStorageMutationTarget_reparse (json j (by simp only [List.mem_cons, true_or, or_true]))
  simp only [List.map_cons, List.map_nil, canonicalOpaqueId, uuid, checkedText_reparse, fencingEpoch_reparse,
    mutationOperation_reparse, isContractVersion_reparse, place]

theorem mutationRequestKeys_nodup : mutationRequestKeys.Nodup := by decide

/-- A request put together from normal forms is the request put together from the values. -/
theorem assertStorageMutationRequest_record {values : List JsValue}
    (length : values.length = mutationRequestKeys.length)
    (json : ∀ v ∈ values, IsJson v) :
    assertStorageMutationRequest (record mutationRequestKeys (values.map reparse)) =
      assertStorageMutationRequest (record mutationRequestKeys values) := by
  have settled : ∀ v ∈ values.map reparse, IsJson v := by
    intro v inside
    obtain ⟨w, there, rfl⟩ := List.mem_map.mp inside
    exact isJson_reparse (json w there)
  have length' : (values.map reparse).length = mutationRequestKeys.length := by rw [List.length_map, length]
  rw [← assertStorageMutationRequest_reparse (isJson_record mutationRequestKeys_nodup length' settled),
    reparse_record _ json, assertStorageMutationRequest_reparse (isJson_record mutationRequestKeys_nodup length json)]

theorem assertStorageMutationResult_reparse {v : JsValue} (json : IsJson v) (request : StorageMutationRequest) :
    assertStorageMutationResult (reparse v) request = assertStorageMutationResult v request := by
  refine readFields_reparse json _ ?_
  intro values length json
  rcases values with _ | ⟨a, _ | ⟨b, _ | ⟨c, _ | ⟨d, _ | ⟨e, _ | ⟨f, _ | ⟨g, _ | ⟨h, _ | ⟨i, _ | ⟨j, _ | ⟨k, _ |
    ⟨l, _ | ⟨m, more⟩⟩⟩⟩⟩⟩⟩⟩⟩⟩⟩⟩⟩
  all_goals try cases length
  have fields : ∀ v ∈ [a, b, c, d, e, f, g, i, k, l], IsJson v := by
    intro v inside
    apply json
    simp only [List.mem_cons, List.not_mem_nil, or_false] at inside ⊢
    tauto
  have actual := assertStorageMutationRequest_record rfl fields
  simp only [List.map_cons, List.map_nil] at actual
  simp only [List.map_cons, List.map_nil, actual, canonicalOpaqueId, checkedText_reparse, isText_reparse]

theorem assertCheckpointDescriptor_reparse {v : JsValue} (json : IsJson v) :
    assertCheckpointDescriptor (reparse v) = assertCheckpointDescriptor v := by
  refine readFields_reparse json _ ?_
  intro values length json
  rcases values with _ | ⟨a, _ | ⟨b, _ | ⟨c, _ | ⟨d, _ | ⟨e, _ | ⟨f, _ | ⟨g, _ | ⟨h, _ | ⟨i, _ | ⟨j, _ | ⟨k, _ |
    ⟨l, _ | ⟨m, more⟩⟩⟩⟩⟩⟩⟩⟩⟩⟩⟩⟩⟩
  all_goals try cases length
  simp only [List.map_cons, List.map_nil, canonicalOpaqueId, uuid, isoTimestamp, checkedText_reparse,
    fencingEpoch_reparse, isContractVersion_reparse, assertCheckpointClass_reparse]

end PortableCodex.Contracts
