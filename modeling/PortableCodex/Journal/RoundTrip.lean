import PortableCodex.Contracts.NormalForms
import PortableCodex.Journal.CanonicalLaws
import PortableCodex.Journal.JournalRun

/-!
The round trip of journal records.

The text of a record parses to its values in another order. The checks of an operation accept these as they
accepted the operation, within the same budget (`checkOperationInput_settled`), so a record is read back as it was
written (`parseRecord_makeRecord`).
-/

namespace PortableCodex.Journal

open Js Contracts CanonicalJson Traces
open ProviderState (Budget OpaqueId byteLength canonicalOpaqueId canonicalOpaqueId_reads ensure_eq_some_iff
  ensure_pos exactDataFields exactDataFields_of inspectPlainObject isText record reparse textJson)

/-! ### Values read back -/

theorem canonicalizeAt_same {v w : JsValue} (same : Same v w) (json : IsJson v) (depth : Nat) (budget : Budget) :
    canonicalizeAt v depth budget = canonicalizeAt w depth budget := by
  by_cases fits : policy.Fits budget
  · exact Accounts.same accounts_canonicalizeAt same json depth fits
  · have refused (u : JsValue) : canonicalizeAt u depth budget = none := by
      cases visited : canonicalizeAt u depth budget with
      | none => rfl
      | some _ => exact absurd (fits_of_canonicalizeAt visited) fits
    rw [refused, refused]

/-- What `canonicalize` returned for a JSON value. -/
theorem canonicalizeAt_normal {v w : JsValue} {depth : Nat} {budget next : Budget}
    (run : canonicalizeAt v depth budget = some (w, next)) : w = reparse v ∧ IsJson v := by
  obtain ⟨normal, json, -⟩ := (accounts_canonicalizeAt v).result (fits_of_canonicalizeAt run) run
  exact ⟨normal, json⟩

theorem canonicalizeAt_settled {v w : JsValue} {depth : Nat} {budget next : Budget}
    (run : canonicalizeAt v depth budget = some (w, next)) :
    canonicalizeAt (settle w) depth budget = some (w, next) := by
  obtain ⟨rfl, json⟩ := canonicalizeAt_normal run
  rw [← canonicalizeAt_same (same_settle_reparse json) json, run]

theorem assertStorageMutationRequest_settled {v w : JsValue} {depth : Nat} {budget next : Budget}
    (run : canonicalizeAt v depth budget = some (w, next)) :
    assertStorageMutationRequest (settle w) = assertStorageMutationRequest v := by
  obtain ⟨rfl, json⟩ := canonicalizeAt_normal run
  have settled := isJson_reparse json
  rw [← assertStorageMutationRequest_reparse (isJson_settle settled), reparse_settle settled, reparse_reparse json,
    assertStorageMutationRequest_reparse json]

/-- The fields of a value with the same normal form. -/
theorem exactDataFields_same {v w : JsValue} {keys : List JsString} {values : List JsValue} (left : IsJson v)
    (right : IsJson w) (normal : reparse v = reparse w) (h : exactDataFields v keys = some values) :
    ∃ values', exactDataFields w keys = some values' ∧ values'.map reparse = values.map reparse := by
  have read := exactDataFields_reparse right keys
  rw [← normal, exactDataFields_reparse left, h] at read
  obtain ⟨values', held, same⟩ := Option.map_eq_some_iff.mp read.symm
  exact ⟨values', held, same⟩

theorem resultKeys_nodup : [js "checkpoint", js "mutation"].Nodup := by decide

/-- A result is normalized again as it was. -/
theorem normalizeResult_settled {result w : JsValue} {request : StorageMutationRequest} {budget next : Budget}
    (run : normalizeResult result request budget = some (w, next)) :
    normalizeResult (settle w) request budget = some (w, next) := by
  obtain ⟨values, -, run⟩ := Option.bind_eq_some_iff.mp run
  rcases values with _ | ⟨c, _ | ⟨m, _ | ⟨_, _⟩⟩⟩
  · cases run
  · cases run
  · obtain ⟨descriptor, checked, run⟩ := Option.bind_eq_some_iff.mp run
    obtain ⟨proof, proved, run⟩ := Option.bind_eq_some_iff.mp run
    obtain ⟨_, target, run⟩ := Option.bind_eq_some_iff.mp run
    obtain ⟨_, epoch, run⟩ := Option.bind_eq_some_iff.mp run
    obtain ⟨rfl, json⟩ := canonicalizeAt_normal run
    have settled := isJson_settle (isJson_reparse json)
    have fields := exactDataFields_of .held resultKeys_nodup (rfl : [c, m].length = 2)
    have normal : reparse (record [js "checkpoint", js "mutation"] [c, m]) =
        reparse (settle (reparse (record [js "checkpoint", js "mutation"] [c, m]))) := by
      rw [reparse_settle (isJson_reparse json), reparse_reparse json]
    obtain ⟨values', read, maps⟩ := exactDataFields_same json settled normal fields
    have jsons := isJson_fields json fields
    have jsons' := isJson_fields settled read
    rcases values' with _ | ⟨c', _ | ⟨m', _ | ⟨_, _⟩⟩⟩
    · cases congrArg List.length maps
    · cases congrArg List.length maps
    · obtain ⟨first, rest⟩ := List.cons.inj maps
      obtain ⟨second, -⟩ := List.cons.inj rest
      simp only [List.mem_cons, List.not_mem_nil, or_false, forall_eq_or_imp, forall_eq] at jsons'
      have json' := isJson_record resultKeys_nodup (rfl : [c', m'].length = 2) (by
        simp only [List.mem_cons, List.not_mem_nil, or_false, forall_eq_or_imp, forall_eq]
        exact jsons')
      have jsonC : IsJson c := jsons c List.mem_cons_self
      have jsonM : IsJson m := jsons m (List.mem_cons_of_mem _ List.mem_cons_self)
      have descriptors : assertCheckpointDescriptor c' = assertCheckpointDescriptor c := by
        rw [← assertCheckpointDescriptor_reparse jsons'.1, first]
        exact assertCheckpointDescriptor_reparse jsonC
      have proofs : assertStorageMutationResult m' request = assertStorageMutationResult m request := by
        rw [← assertStorageMutationResult_reparse jsons'.2, second]
        exact assertStorageMutationResult_reparse jsonM request
      have same : Same (record [js "checkpoint", js "mutation"] [c', m'])
          (record [js "checkpoint", js "mutation"] [c, m]) := by
        refine same_of_reparse json' json ?_
        rw [← @reparse_record _ [c', m'] (isJson_fields json' (exactDataFields_of .held resultKeys_nodup rfl)),
          ← @reparse_record _ [c, m] jsons]
        exact congrArg (fun values => reparse (record _ values)) maps
      simp only [normalizeResult, read, descriptors, checked, proofs, proved, target, epoch, Option.bind_eq_bind,
        Option.bind_some, canonicalizeAt_same same json' 0 budget, run]
    · cases congrArg List.length maps
  · cases run

/-! ### Operations read back -/

/-- The fields that a record gives back for an operation. -/
def settledFields (input : OperationInput) : List JsValue :=
  [settle input.binding, settle input.materialization, textJson input.operationId, settle input.request,
    settle input.result]

/-- An operation is accepted again as it was. -/
theorem checkOperationInput_settled {value value' : JsValue} {materializationRequired : Bool} {input : OperationInput}
    (accepted : checkOperationInput value materializationRequired = some input)
    (fields : operationFields value' materializationRequired = some (settledFields input)) :
    checkOperationInput value' materializationRequired = some input := by
  obtain ⟨values, -, run⟩ := Option.bind_eq_some_iff.mp accepted
  rcases values with _ | ⟨b, _ | ⟨m, _ | ⟨i, _ | ⟨r, _ | ⟨s, _ | ⟨_, _⟩⟩⟩⟩⟩⟩
  all_goals try cases run
  obtain ⟨operationId, id, run⟩ := Option.bind_eq_some_iff.mp run
  obtain ⟨mutation, asked, run⟩ := Option.bind_eq_some_iff.mp run
  obtain ⟨⟨request, first⟩, requested, run⟩ := Option.bind_eq_some_iff.mp run
  obtain ⟨_, named, run⟩ := Option.bind_eq_some_iff.mp run
  obtain ⟨⟨binding, second⟩, bound, run⟩ := Option.bind_eq_some_iff.mp run
  obtain ⟨_, object, run⟩ := Option.bind_eq_some_iff.mp run
  obtain ⟨⟨result, third⟩, resulted, run⟩ := Option.bind_eq_some_iff.mp run
  have name : canonicalOpaqueId (textJson operationId) = some operationId := canonicalOpaqueId_reads .held operationId
  cases materializationRequired with
  | true =>
    obtain ⟨⟨materialization, fourth⟩, materialized, run⟩ := Option.bind_eq_some_iff.mp run
    obtain ⟨_, nonempty, run⟩ := Option.bind_eq_some_iff.mp run
    obtain rfl := Option.some.inj run
    simp only [checkOperationInput, fields, settledFields, name,
      assertStorageMutationRequest_settled requested, asked, canonicalizeAt_settled requested, named,
      canonicalizeAt_settled bound, object, normalizeResult_settled resulted, canonicalizeAt_settled materialized,
      nonempty, if_true, Option.bind_eq_bind, Option.bind_some]
  | false =>
    obtain rfl := Option.some.inj run
    simp only [checkOperationInput, fields, settledFields, name,
      assertStorageMutationRequest_settled requested, asked, canonicalizeAt_settled requested, named,
      canonicalizeAt_settled bound, object, normalizeResult_settled resulted, Bool.false_eq_true, if_false,
      Option.bind_eq_bind, Option.bind_some]

theorem normalizeOperationInput_iff {value : JsValue} {code : ErrorCode} {materializationRequired : Bool}
    {input : OperationInput} : normalizeOperationInput value code materializationRequired = .ok input ↔
      checkOperationInput value materializationRequired = some input ∧
        byteLength (canonicalText (inputJson input)) ≤ maxCanonicalBytes := by
  unfold normalizeOperationInput
  cases checked : checkOperationInput value materializationRequired with
  | none =>
    constructor
    · intro never
      cases never
    · rintro ⟨never, -⟩
      cases never
  | some held =>
    rw [found_some, ok_bind, Option.some.injEq]
    by_cases fits : byteLength (canonicalText (inputJson held)) ≤ maxCanonicalBytes
    · rw [canonicalBytes_iff.mpr ⟨fits, rfl⟩, ok_bind, Except.ok.injEq]
      constructor
      · rintro rfl
        exact ⟨rfl, fits⟩
      · exact And.left
    · rw [canonicalBytes, ensure, if_neg fits]
      constructor
      · intro never
        cases never
      · rintro ⟨rfl, never⟩
        exact absurd never fits

theorem normalizeOperationInput_settled {value value' : JsValue} {code code' : ErrorCode}
    {materializationRequired : Bool} {input : OperationInput}
    (accepted : normalizeOperationInput value code materializationRequired = .ok input)
    (fields : operationFields value' materializationRequired = some (settledFields input)) :
    normalizeOperationInput value' code' materializationRequired = .ok input := by
  obtain ⟨checked, fits⟩ := normalizeOperationInput_iff.mp accepted
  exact normalizeOperationInput_iff.mpr ⟨checkOperationInput_settled checked fields, fits⟩

/-- An accepted operation has a materialization if one is required, and none otherwise. -/
theorem checkOperationInput_materialization {value : JsValue} {materializationRequired : Bool}
    {input : OperationInput}
    (accepted : checkOperationInput value materializationRequired = some input) :
    if materializationRequired then isNonemptyObject input.materialization = true
    else input.materialization = .null := by
  obtain ⟨values, -, run⟩ := Option.bind_eq_some_iff.mp accepted
  rcases values with _ | ⟨b, _ | ⟨m, _ | ⟨i, _ | ⟨r, _ | ⟨s, _ | ⟨_, _⟩⟩⟩⟩⟩⟩
  all_goals try cases run
  obtain ⟨operationId, -, run⟩ := Option.bind_eq_some_iff.mp run
  obtain ⟨mutation, -, run⟩ := Option.bind_eq_some_iff.mp run
  obtain ⟨⟨request, first⟩, -, run⟩ := Option.bind_eq_some_iff.mp run
  obtain ⟨_, -, run⟩ := Option.bind_eq_some_iff.mp run
  obtain ⟨⟨binding, second⟩, -, run⟩ := Option.bind_eq_some_iff.mp run
  obtain ⟨_, -, run⟩ := Option.bind_eq_some_iff.mp run
  obtain ⟨⟨result, third⟩, -, run⟩ := Option.bind_eq_some_iff.mp run
  cases materializationRequired with
  | false =>
    obtain rfl := Option.some.inj run
    rfl
  | true =>
    obtain ⟨⟨materialization, fourth⟩, -, run⟩ := Option.bind_eq_some_iff.mp run
    obtain ⟨_, nonempty, run⟩ := Option.bind_eq_some_iff.mp run
    obtain rfl := Option.some.inj run
    exact ensure_eq_some_iff.mp nonempty

/-- Without a materialization an operation has none. -/
theorem materialization_null {value : JsValue} {input : OperationInput}
    (accepted : checkOperationInput value false = some input) : input.materialization = .null :=
  checkOperationInput_materialization accepted

/-! ### Records read back -/

theorem recordKeys_nodup : recordKeys.Nodup := by decide

/-- The values of the fields of a record. -/
def JournalRecord.values (r : JournalRecord) : List JsValue :=
  [.number (Js.ofNat recordVersion), textJson r.operationId, .string r.state.key.revision, r.state.json, r.binding,
    r.request, r.result, r.materialization]

theorem recordFields_settle (r : JournalRecord) :
    exactDataFields (settle r.json) recordKeys = some (r.values.map settle) := by
  have fields : exactDataFields (record recordKeys r.values) recordKeys = some r.values := by
    have held := exactDataFields_of .held recordKeys_nodup (rfl : r.values.length = recordKeys.length)
    rwa [show r.values.map (ProviderState.Form.of .held) = r.values from List.map_id _] at held
  have settled := @exactDataFields_settle recordKeys recordKeys r.values recordKeys_nodup rfl
  rw [fields] at settled
  exact settled

theorem getMember_recordVersion (v : JsValue) (vs : List JsValue) :
    getMember (recordKeys.zip (v :: vs)) (js "recordVersion") = some v := rfl

/-- A parsed record, by its members. -/
theorem settle_json (r : JournalRecord) :
    settle r.json = .object (ofEntries (mapValues settle (recordKeys.zip r.values))) := settle_object _

theorem recordMembers_nodup (r : JournalRecord) :
    ((mapValues settle (recordKeys.zip r.values)).map Prod.fst).Nodup := by
  have lengths : recordKeys.length ≤ r.values.length := le_of_eq rfl
  rw [mapValues_keys, List.map_fst_zip lengths]
  exact recordKeys_nodup

theorem recordVersion_settle (r : JournalRecord) :
    getMember (ofEntries (mapValues settle (recordKeys.zip r.values))) (js "recordVersion") =
      some (settle (.number (Js.ofNat recordVersion))) := by
  have distinct := recordMembers_nodup r
  rw [getMember_perm (ofEntries_nodup distinct) (ofEntries_perm distinct), getMember_mapValues, JournalRecord.values,
    getMember_recordVersion, Option.map_some]

theorem safeInteger_recordVersion :
    ProviderState.safeInteger (settle (.number (Js.ofNat recordVersion))) = some recordVersion := by
  have one : recordVersion < 2 ^ 53 := by decide
  exact (safeInteger_reparse (.number (Js.ofNat recordVersion))).trans (safeNat?_ofNat one)

theorem checkRecordVersion_settle (r : JournalRecord) : checkRecordVersion (settle r.json) = .ok () := by
  have object : inspectPlainObject (settle r.json) =
      some (ofEntries (mapValues settle (recordKeys.zip r.values))) := by
    rw [settle_json, inspectPlainObject, if_pos (ofEntries_nodup (recordMembers_nodup r))]
  have positive : 0 < recordVersion := by decide
  have version : (getMember (ofEntries (mapValues settle (recordKeys.zip r.values))) (js "recordVersion")).bind
      ProviderState.safeInteger = some recordVersion := by
    rw [recordVersion_settle, Option.bind_some, safeInteger_recordVersion]
  unfold checkRecordVersion
  simp only [object, found_some, ok_bind, version, ensure_ok positive, ensure_ok trivial]

theorem exactDataFields_record {keys : List JsString} {values : List JsValue} (nodup : keys.Nodup)
    (length : values.length = keys.length) : exactDataFields (record keys values) keys = some values := by
  have held := exactDataFields_of .held nodup length
  rwa [show values.map (ProviderState.Form.of .held) = values from List.map_id _] at held

/-- The operation without a materialization that `parseRecord` puts together again. -/
theorem preparedFields_record (input : OperationInput) (none : input.materialization = .null) :
    operationFields (record [js "binding", js "operationId", js "request", js "result"]
        [settle input.binding, textJson input.operationId, settle input.request, settle input.result]) false =
      some (settledFields input) := by
  have nodup : [js "binding", js "operationId", js "request", js "result"].Nodup := by decide
  have fields := @exactDataFields_record _ [settle input.binding, textJson input.operationId, settle input.request,
    settle input.result] nodup rfl
  rw [operationFields, if_neg Bool.false_ne_true, fields, settledFields, none]
  rfl

/-- The operation with a materialization that `parseRecord` puts together again. -/
theorem materializedFields_record (input : OperationInput) :
    operationFields (record [js "binding", js "operationId", js "request", js "result", js "materialization"]
        [settle input.binding, textJson input.operationId, settle input.request, settle input.result,
          settle input.materialization]) true = some (settledFields input) := by
  have nodup : [js "binding", js "operationId", js "request", js "result", js "materialization"].Nodup := by decide
  have nodup' : [js "binding", js "materialization", js "operationId", js "request", js "result"].Nodup := by decide
  have fields := @exactDataFields_record _ (settledFields input) nodup' rfl
  rw [operationFields, if_pos rfl, ← fields]
  refine exactDataFields_perm nodup (.cons _ ?_)
  exact @List.perm_append_comm _ [_, _, _] [_]

/-- The values of a record of an operation are read back. -/
theorem readRecord_settle {value : JsValue} {code : ErrorCode} {materializationRequired : Bool}
    {input : OperationInput} {state : State} (accepted : normalizeOperationInput value code materializationRequired = .ok input)
    (agrees : state ≠ .prepared ↔ materializationRequired = true) :
    readRecord (settle (makeRecord input (.named state) input.materialization).json) =
      .ok (makeRecord input (.named state) input.materialization) := by
  have fields := recordFields_settle (makeRecord input (.named state) input.materialization)
  have version := checkRecordVersion_settle (makeRecord input (.named state) input.materialization)
  have read := StateValue.read_settle (.named state)
  have revision : isText state.revision (.string state.revision) = true := decide_eq_true rfl
  generalize settle (makeRecord input (.named state) input.materialization).json = parsed at fields version ⊢
  unfold readRecord
  simp only [version, ok_bind, fields, JournalRecord.values, makeRecord, List.map_cons, List.map_nil, read,
    found_some, StateValue.key]
  by_cases prepared : state = .prepared
  · subst prepared
    obtain rfl : materializationRequired = false := by
      cases materializationRequired with
      | false => rfl
      | true => exact absurd rfl (agrees.mpr rfl)
    have none := materialization_null (normalizeOperationInput_iff.mp accepted).1
    have again := @normalizeOperationInput_settled _ _ _ .invalidJournalRecord _ _ accepted
      (preparedFields_record input none)
    have revised : isText State.prepared.revision (settle (.string State.prepared.revision)) = true := revision
    have id : settle (textJson input.operationId) = textJson input.operationId := rfl
    refine ensure_bind_ok.mpr ⟨revised, ?_⟩
    simp only [if_true, ne_eq, not_true_eq_false, decide_false, id, again, ok_bind, none]
    rfl
  · obtain rfl := agrees.mp prepared
    have other : ¬ StateValue.named state = .named .prepared := fun same => prepared (StateValue.named.inj same)
    have again := @normalizeOperationInput_settled _ _ _ .invalidJournalRecord _ _ accepted
      (materializedFields_record input)
    have revised : isText state.revision (settle (.string state.revision)) = true := revision
    have id : settle (textJson input.operationId) = textJson input.operationId := rfl
    refine ensure_bind_ok.mpr ⟨revised, ?_⟩
    simp only [ne_eq, other, not_false_eq_true, decide_true, if_false, id, again, ok_bind]

/-- A record is read back as it was written. -/
theorem parseRecord_makeRecord {value : JsValue} {code : ErrorCode} {materializationRequired : Bool}
    {input : OperationInput} {state : State}
    (accepted : normalizeOperationInput value code materializationRequired = .ok input)
    (agrees : state ≠ .prepared ↔ materializationRequired = true)
    (fits : byteLength (canonicalText (makeRecord input (.named state) input.materialization).json) ≤
      maxCanonicalBytes) :
    parseRecord (makeRecord input (.named state) input.materialization).bytes =
      .ok (makeRecord input (.named state) input.materialization) := by
  have read := readRecord_settle accepted agrees
  generalize makeRecord input (.named state) input.materialization = r at fits read ⊢
  clear accepted
  have lossless : decodeUtf8 r.bytes = canonicalText r.json :=
    (lossless_iff_wellFormed _).mpr (wellFormed_canonicalText r.json)
  have parsed : parseJson (canonicalText r.json) = some (settle r.json) := by
    have shape : r.json = .object ((js "recordVersion", .number (Js.ofNat recordVersion)) ::
        recordKeys.tail.zip r.values.tail) := rfl
    rw [canonicalText, shape]
    exact parseJson_object_newline _ _
  have short : r.bytes.length ≤ maxCanonicalBytes := fits
  have text : canonicalBytes r.json .invalidJournalRecord = .ok (canonicalText r.json) :=
    canonicalBytes_iff.mpr ⟨fits, rfl⟩
  have same : encodeUtf8 (canonicalText r.json) = r.bytes := rfl
  unfold parseRecord
  simp only [lossless, ensure_ok short, ensure_ok same, ok_bind, parsed, found_some, read, text, ensure_ok trivial]

/-! ### Records of a run -/

/-- The record in the canonical file of this name can be read. -/
def Legible (name : JsString) (files : RecordFiles) : Prop :=
  ∃ r, files.content = some r.bytes ∧ parseRecord r.bytes = .ok r ∧ operationJournalRecordFilename r.operationId = name

/-- The content is as it was, or can be read. -/
def Rewritten (name : JsString) (before after : RecordFiles) : Prop :=
  after.content = before.content ∨ Legible name after

theorem Legible.same {name : JsString} {before after : RecordFiles} (legible : Legible name before)
    (same : after.content = before.content) : Legible name after := by
  obtain ⟨r, held, rest⟩ := legible
  exact ⟨r, same.trans held, rest⟩

instance rewrittenTrans (name : JsString) : IsTrans RecordFiles (Rewritten name) where
  trans := by
    rintro a b c first (same | legible)
    · rcases first with same' | legible
      · exact .inl (same.trans same')
      · exact .inr (legible.same same)
    · exact .inr legible

/-- The record that a call installs can be read. -/
theorem parseRecord_targetRecord {call : Call} {input : OperationInput} {requestedState : State} {requireAbsent : Bool}
    (asked : call.request = .ok (.transition input requestedState requireAbsent))
    (fits : (targetRecord input requestedState).bytes.length ≤ maxCanonicalBytes) :
    parseRecord (targetRecord input requestedState).bytes = .ok (targetRecord input requestedState) := by
  have prepared {options : JsValue}
      (accepted : normalizeOperationInput options .invalidJournalRequest false = .ok input)
      (same : requestedState = .prepared) :
      parseRecord (targetRecord input requestedState).bytes = .ok (targetRecord input requestedState) := by
    subst same
    have target : targetRecord input .prepared = makeRecord input (.named .prepared) input.materialization := by
      rw [targetRecord, if_pos rfl, materialization_null (normalizeOperationInput_iff.mp accepted).1]
    rw [target] at fits ⊢
    exact parseRecord_makeRecord accepted ⟨fun other => absurd rfl other, fun never => absurd never Bool.false_ne_true⟩ fits
  have materialized {options : JsValue}
      (accepted : normalizeOperationInput options .invalidJournalRequest true = .ok input)
      (other : requestedState ≠ .prepared) :
      parseRecord (targetRecord input requestedState).bytes = .ok (targetRecord input requestedState) := by
    have target : targetRecord input requestedState =
        makeRecord input (.named requestedState) input.materialization := by
      rw [targetRecord, if_neg other]
    rw [target] at fits ⊢
    exact parseRecord_makeRecord accepted ⟨fun _ => rfl, fun _ => other⟩ fits
  have normalized {options : JsValue} {required absent : Bool} {state : State}
      (asked : (normalizeOperationInput options .invalidJournalRequest required >>= fun input =>
        Except.ok (Request.transition input state absent)) = .ok (.transition input requestedState requireAbsent)) :
      normalizeOperationInput options .invalidJournalRequest required = .ok input ∧ requestedState = state := by
    cases accepted : normalizeOperationInput options .invalidJournalRequest required with
    | error code =>
      rw [accepted] at asked
      cases asked
    | ok held =>
      rw [accepted, ok_bind] at asked
      cases asked
      exact ⟨rfl, rfl⟩
  cases call with
  | read options =>
    rw [Call.request] at asked
    cases held : readOptions options with
    | none =>
      rw [held] at asked
      cases asked
    | some id =>
      rw [held, found_some, ok_bind] at asked
      cases asked
  | prepare options =>
    obtain ⟨accepted, same⟩ := normalized asked
    exact prepared accepted same
  | prepareFresh options =>
    obtain ⟨accepted, same⟩ := normalized asked
    exact prepared accepted same
  | markMaterialized options =>
    obtain ⟨accepted, same⟩ := normalized asked
    exact materialized accepted (by rw [same]; decide)
  | commit options =>
    obtain ⟨accepted, same⟩ := normalized asked
    exact materialized accepted (by rw [same]; decide)

/-- What a call does to the canonical file of its operation can be read. -/
theorem Request.Changes.rewritten {call : Call} {request : Request} {before after : RecordFiles}
    (asked : call.request = .ok request) (changes : request.Changes before after) :
    Rewritten (operationJournalRecordFilename request.operationId) before after := by
  cases request with
  | read operationId => exact .inl changes
  | transition input requestedState requireAbsent =>
    rcases changes with same | ⟨held, -, fits⟩
    · exact .inl same
    · exact .inr ⟨_, held, parseRecord_targetRecord asked fits, rfl⟩

/-- Over a run, what the canonical file of a name holds is what it held before, or can be read. -/
theorem Run.rewritten {currentUid : Nat} {trustRenameOutcome : Bool} {trace : List CallRecord} {directory : Directory}
    (run : Run (system currentUid trustRenameOutcome) trace directory) (name : JsString) :
    (visited name trace ++ [directory name]).Pairwise (Rewritten name) := by
  rw [← List.isChain_iff_pairwise]
  induction run with
  | start _ => exact .singleton _
  | @step trace before events after _ taken ih =>
    obtain ⟨call, ⟨code, -, rfl, rfl⟩ | ⟨request, path, result, last, asked, execution, rfl, rfl⟩⟩ := taken
    · have whole : visited name (trace ++ [.refused call (journalError code)]) = visited name trace := by
        rw [visited, List.flatMap_append, List.flatMap_singleton]
        exact List.append_nil _
      rw [whole]
      exact ih
    · refine chain_step (fun _ => .inl rfl) ih ?_ execution
      rintro rfl
      exact ((changes_request request _).execution execution).1.imp fun _ _ => Request.Changes.rewritten asked

/-- The text of what was read is what it was read from. -/
theorem canonicalBytes_parseRecord {bytes : Bytes} {r : JournalRecord} (h : parseRecord bytes = .ok r) :
    ∃ text, canonicalBytes r.json .invalidJournalRecord = .ok text ∧ encodeUtf8 text = bytes := by
  have same := parseRecord_bytes h
  unfold parseRecord at h
  obtain ⟨short, -⟩ := ensure_bind_ok.mp h
  rw [same] at short
  exact ⟨canonicalText r.json, canonicalBytes_iff.mpr ⟨short, rfl⟩, same.symm⟩

/-! ### States that do not fit -/

/-- A record that was read beyond its first state has a materialization. -/
theorem readRecord_materialization {value : JsValue} {r : JournalRecord} (h : readRecord value = .ok r)
    (other : r.state ≠ .named .prepared) : isNonemptyObject r.materialization = true := by
  unfold readRecord at h
  cases version : checkRecordVersion value with
  | error code =>
    rw [version] at h
    cases h
  | ok _ =>
    rw [version, ok_bind] at h
    split at h
    · rename_i operationId revision state binding request result materialization fields
      cases read : StateValue.read state with
      | none =>
        rw [read] at h
        cases h
      | some state =>
        rw [read, found_some, ok_bind] at h
        obtain ⟨-, h⟩ := ensure_bind_ok.mp h
        dsimp only at h
        by_cases prepared : state = .named .prepared
        · simp only [prepared, if_true, ne_eq, not_true_eq_false, decide_false] at h
          cases again : normalizeOperationInput (record [js "binding", js "operationId", js "request", js "result"]
              [binding, operationId, request, result]) .invalidJournalRecord false with
          | error code =>
            rw [again] at h
            cases h
          | ok input =>
            rw [again, ok_bind] at h
            obtain ⟨-, same⟩ := ensure_bind_ok.mp h
            obtain rfl := Except.ok.inj same
            exact absurd rfl other
        · simp only [prepared, if_false, ne_eq, not_false_eq_true, decide_true] at h
          cases again : normalizeOperationInput
              (record [js "binding", js "operationId", js "request", js "result", js "materialization"]
                [binding, operationId, request, result, materialization]) .invalidJournalRecord true with
          | error code =>
            rw [again] at h
            cases h
          | ok input =>
            rw [again, ok_bind] at h
            obtain rfl := Except.ok.inj h
            exact checkOperationInput_materialization (normalizeOperationInput_iff.mp again).1
    · cases h

theorem parseRecord_materialization {bytes : Bytes} {r : JournalRecord} (h : parseRecord bytes = .ok r)
    (other : r.state ≠ .named .prepared) : isNonemptyObject r.materialization = true := by
  unfold parseRecord at h
  obtain ⟨-, h⟩ := ensure_bind_ok.mp h
  obtain ⟨-, h⟩ := ensure_bind_ok.mp h
  cases parsed : parseJson (decodeUtf8 bytes) with
  | none =>
    rw [parsed] at h
    cases h
  | some value =>
    rw [parsed, found_some, ok_bind] at h
    cases read : readRecord value with
    | error code =>
      rw [read] at h
      cases h
    | ok held =>
      rw [read, ok_bind] at h
      cases text : canonicalBytes held.json .invalidJournalRecord with
      | error code =>
        rw [text] at h
        cases h
      | ok text' =>
        rw [text, ok_bind] at h
        obtain ⟨-, same⟩ := ensure_bind_ok.mp h
        obtain rfl := Except.ok.inj same
        exact readRecord_materialization read other

/-- Two records have the same bytes only if their fields have the same texts. -/
theorem values_of_bytes {r held : JournalRecord} (same : held.bytes = r.bytes) :
    held.values.map stringify = r.values.map stringify := by
  have texts : stringify held.json ++ [10] = stringify r.json ++ [10] := canonicalText_of_bytes same
  exact @stringify_zip_inj recordKeys held.values r.values rfl rfl (List.append_cancel_right texts)

/-- A record without a materialization beyond its first state is not read back. -/
theorem parseRecord_mismatched {input : OperationInput} {state : State} (other : state ≠ .prepared)
    (missing : input.materialization = .null) (r : JournalRecord) :
    parseRecord (makeRecord input (.named state) input.materialization).bytes ≠ .ok r := by
  intro h
  have texts := values_of_bytes (parseRecord_bytes h)
  simp only [JournalRecord.values, makeRecord, missing, List.map_cons, List.map_nil, List.cons.injEq] at texts
  obtain ⟨-, -, -, stateText, -, -, -, text, -⟩ := texts
  have later : r.state ≠ .named .prepared := by
    intro prepared
    rw [prepared] at stateText
    cases state with
    | prepared => exact other rfl
    | materialized => exact absurd stateText (by decide)
    | committed => exact absurd stateText (by decide)
  have nonempty := parseRecord_materialization h later
  cases held : r.materialization with
  | object members =>
    rw [held] at text
    have first : (js "null").head? = some 123 := congrArg List.head? text
    exact absurd first (by decide)
  | _ =>
    rw [held] at nonempty
    cases nonempty

/-! ### The round trip -/

/-- Records are read back as they were written, and written as they were read; so whatever a call leaves in a
canonical file can be read. -/
theorem recordRoundTrip :
    (∀ value code materializationRequired input state text,
      normalizeOperationInput value code materializationRequired = .ok input →
      (state ≠ .prepared ↔ materializationRequired = true) →
      canonicalBytes (makeRecord input (.named state) input.materialization).json .invalidJournalRequest = .ok text →
      parseRecord (encodeUtf8 text) = .ok (makeRecord input (.named state) input.materialization)) ∧
    (∀ bytes r, parseRecord bytes = .ok r →
      ∃ text, canonicalBytes r.json .invalidJournalRecord = .ok text ∧ encodeUtf8 text = bytes) ∧
    ∀ currentUid trustRenameOutcome trace directory, Run (system currentUid trustRenameOutcome) trace directory →
      ∀ name, (visited name trace ++ [directory name]).Pairwise (Rewritten name) := by
  refine ⟨?_, ?_, ?_⟩
  · intro value code materializationRequired input state text accepted agrees written
    obtain ⟨fits, rfl⟩ := canonicalBytes_iff.mp written
    exact parseRecord_makeRecord accepted agrees fits
  · intro bytes r h
    exact canonicalBytes_parseRecord h
  · intro currentUid trustRenameOutcome trace directory run name
    exact Run.rewritten run name

/-! ### A checkpoint -/

theorem sampleOperation_accepted :
    ((normalizeOperationInput sampleOperation .invalidJournalRequest false).toOption.any fun input =>
      (canonicalBytes (makeRecord input (.named .materialized) input.materialization).json
        .invalidJournalRequest).toOption.isSome) = true := by
  decide +kernel

/-- An operation without a materialization, in a state that asks for one: the record is written and never read. -/
theorem recordRoundTrip_mismatched :
    ∃ value code materializationRequired input state text,
      normalizeOperationInput value code materializationRequired = .ok input ∧
      canonicalBytes (makeRecord input (.named state) input.materialization).json .invalidJournalRequest = .ok text ∧
      ∀ r, parseRecord (encodeUtf8 text) ≠ .ok r := by
  have sample := sampleOperation_accepted
  cases accepted : normalizeOperationInput sampleOperation .invalidJournalRequest false with
  | error code =>
    rw [accepted] at sample
    cases sample
  | ok input =>
    rw [accepted] at sample
    cases written : canonicalBytes (makeRecord input (.named .materialized) input.materialization).json
        .invalidJournalRequest with
    | error code =>
      simp [Except.toOption, written] at sample
    | ok text =>
      obtain ⟨-, rfl⟩ := canonicalBytes_iff.mp written
      have missing := materialization_null (normalizeOperationInput_iff.mp accepted).1
      have other : State.materialized ≠ .prepared := by decide
      exact ⟨sampleOperation, .invalidJournalRequest, false, input, .materialized, _, accepted, written,
        parseRecord_mismatched other missing⟩

end PortableCodex.Journal
