import PortableCodex.Journal.JournalReading

/-!
The order of the records of an operation.

The bytes of a file determine the state and the texts of its record (`bytes_inj`), so "never backwards" can be
said of the contents of the canonical file: `Extends` orders them, and is transitive.
-/

namespace PortableCodex.Journal

open Js
open ProviderState (byteLength record textJson)

/-! ### Checks -/

theorem ensure_bind_ok {A : Type} {p : Prop} [Decidable p] {code : ErrorCode} {next : Unit → Except ErrorCode A} {a : A} :
    (ensure p code >>= next) = .ok a ↔ p ∧ next () = .ok a := by
  by_cases holds : p
  · rw [ensure, if_pos holds]
    exact (and_iff_right holds).symm
  · rw [ensure, if_neg holds]
    constructor
    · intro thrown
      cases thrown
    · intro passed
      exact absurd passed.1 holds

theorem found_some {A : Type} (a : A) (code : ErrorCode) : found (some a) code = .ok a := rfl

theorem ok_bind {A B : Type} (a : A) (next : A → Except ErrorCode B) : (Except.ok a >>= next) = next a := rfl

theorem ensure_ok {p : Prop} {_ : Decidable p} {code : ErrorCode} (holds : p) : ensure p code = .ok () := if_pos holds

theorem canonicalBytes_iff {value : JsValue} {code : ErrorCode} {text : JsString} :
    canonicalBytes value code = .ok text ↔
      byteLength (canonicalText value) ≤ maxCanonicalBytes ∧ text = canonicalText value := by
  rw [canonicalBytes, ensure_bind_ok, Except.ok.injEq, eq_comm (a := text)]

/-! ### Bytes determine the record -/

theorem wellFormed_canonicalText (v : JsValue) : WellFormed (canonicalText v) :=
  wellFormed_append (wellFormed_stringify v) (wellFormed_of_ascii (by
    intro u inside
    obtain rfl := List.mem_singleton.mp inside
    decide))

theorem canonicalText_of_bytes {v w : JsValue} (same : encodeUtf8 (canonicalText v) = encodeUtf8 (canonicalText w)) :
    canonicalText v = canonicalText w := by
  have left : decodeUtf8 (encodeUtf8 (canonicalText v)) = canonicalText v :=
    (lossless_iff_wellFormed _).mpr (wellFormed_canonicalText v)
  have right : decodeUtf8 (encodeUtf8 (canonicalText w)) = canonicalText w :=
    (lossless_iff_wellFormed _).mpr (wellFormed_canonicalText w)
  rw [← left, same, right]

theorem settle_of_stringify {v w : JsValue} (same : stringify v = stringify w) : settle v = settle w := by
  have parsed := parseJson_stringify v
  rw [same, parseJson_stringify] at parsed
  exact (Option.some.inj parsed).symm

theorem StateValue.read_settle (state : StateValue) : StateValue.read (settle state.json) = some state := by
  induction state with
  | named state => cases state <;> decide
  | boxed inner ih =>
      show (StateValue.read (settle inner.json)).map StateValue.boxed = _
      rw [ih]
      rfl

/-- Records with the same state, operation and materialization. -/
structure SameRecord (r r' : JournalRecord) : Prop where
  operationId : r.operationId = r'.operationId
  state : r.state = r'.state
  binding : canonicalEqual r.binding r'.binding
  request : canonicalEqual r.request r'.request
  result : canonicalEqual r.result r'.result
  materialization : canonicalEqual r.materialization r'.materialization

theorem bytes_inj {r r' : JournalRecord} (same : r.bytes = r'.bytes) : SameRecord r r' := by
  have texts : stringify r.json = stringify r'.json := List.append_cancel_right (canonicalText_of_bytes same)
  have values := stringify_zip_inj rfl rfl texts
  simp only [List.map_cons, List.map_nil, List.cons.injEq] at values
  obtain ⟨-, id, -, state, binding, request, result, materialization, -⟩ := values
  have ids : r.operationId.val = r'.operationId.val := JsValue.string.inj (settle_of_stringify id)
  have states := congrArg StateValue.read (settle_of_stringify state)
  rw [StateValue.read_settle, StateValue.read_settle] at states
  exact ⟨Subtype.ext ids, Option.some.inj states, congrArg (· ++ [10]) binding, congrArg (· ++ [10]) request,
    congrArg (· ++ [10]) result, congrArg (· ++ [10]) materialization⟩

/-! ### The order of states -/

/-- The place of a state in `prepared`, `materialized`, `committed`. -/
def State.rank : State → Nat
  | .prepared => 1
  | .materialized => 2
  | .committed => 3

/-- The operation of a record, as an operation that is compared with others. -/
def JournalRecord.operation (r : JournalRecord) : OperationInput :=
  { binding := r.binding, materialization := r.materialization, operationId := r.operationId, request := r.request,
    result := r.result }

/-- `r'` is a later record of the operation of `r`. -/
structure Later (r r' : JournalRecord) : Prop where
  operation : SameOperation r r'.operation
  ranks : ∃ state state', r.state = .named state ∧ r'.state = .named state' ∧ state.rank < state'.rank
  materialization : r.state ≠ .named .prepared → canonicalEqual r.materialization r'.materialization

/-- `r'` is the record after `r`: no state is skipped. -/
structure Next (r r' : JournalRecord) : Prop extends Later r r' where
  adjacent : ∀ state state', r.state = .named state → r'.state = .named state' → state'.rank = state.rank + 1

theorem Later.trans {a b b' c : JournalRecord} (first : Later a b) (same : b.bytes = b'.bytes) (second : Later b' c) :
    Later a c := by
  have equal := bytes_inj same
  obtain ⟨sa, sb, stateA, stateB, less⟩ := first.ranks
  obtain ⟨sb', sc, stateB', stateC, less'⟩ := second.ranks
  obtain rfl : sb = sb' := StateValue.named.inj (stateB.symm.trans (equal.state.trans stateB'))
  refine ⟨⟨?_, ?_, ?_, ?_⟩, ⟨sa, sc, stateA, stateC, less.trans less'⟩, ?_⟩
  · exact first.operation.operationId.trans (equal.operationId.trans second.operation.operationId)
  · exact first.operation.binding.trans (equal.binding.trans second.operation.binding)
  · exact first.operation.request.trans (equal.request.trans second.operation.request)
  · exact first.operation.result.trans (equal.result.trans second.operation.result)
  · intro started
    refine (first.materialization started).trans (equal.materialization.trans (second.materialization ?_))
    rintro prepared
    rw [stateB'] at prepared
    cases prepared
    cases sa <;> simp [State.rank] at less

/-- What the content of a canonical file can become over a run. -/
def Extends (before after : RecordFiles) : Prop :=
  after.content = before.content ∨ before.content = none ∨
    ∃ r r', before.content = some r.bytes ∧ after.content = some r'.bytes ∧ Later r r'

theorem Extends.trans {a b c : RecordFiles} (first : Extends a b) (second : Extends b c) : Extends a c := by
  rcases first with same | missing | ⟨r, r', held, held', later⟩
  · rwa [Extends, ← same]
  · exact .inr (.inl missing)
  · rcases second with same | missing | ⟨r₂, r₃, held₂, held₃, later₂⟩
    · exact .inr (.inr ⟨r, r', held, same.trans held', later⟩)
    · cases held'.symm.trans missing
    · exact .inr (.inr ⟨r, r₃, held, held₃, later.trans (Option.some.inj (held'.symm.trans held₂)) later₂⟩)

/-- `r` is a record that a call may put after what is in the files. -/
def Follows (before : RecordFiles) (r : JournalRecord) : Prop :=
  (before.content = none ∧ r.state = .named .prepared) ∨
    ∃ earlier, before.content = some earlier.bytes ∧ Next earlier r

/-- One step of the canonical file: none, or to a record that follows the one before. -/
def Advances (before after : RecordFiles) : Prop :=
  after.content = before.content ∨ ∃ r, after.content = some r.bytes ∧ Follows before r

theorem Advances.extends {before after : RecordFiles} (advances : Advances before after) : Extends before after := by
  rcases advances with same | ⟨r, held, ⟨missing, -⟩ | ⟨earlier, held', next⟩⟩
  · exact .inl same
  · exact .inr (.inl missing)
  · exact .inr (.inr ⟨earlier, r, held', held, next.toLater⟩)

end PortableCodex.Journal
