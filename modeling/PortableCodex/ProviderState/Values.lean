import PortableCodex.ProviderState.CanonicalLaws
import PortableCodex.Js.Path

/-!
The checked values of provider state: identifiers, checksums, paths, unsigned integers, counters
and canonical objects.

Each type holds the check its reader makes, so a value of it needs no further check. A reader and
the JSON form of its type satisfy `Reads`.
-/

namespace PortableCodex.ProviderState

open Js

/-- A written value reads back as itself, from memory and from its text. -/
def Reads {α : Type} (read : JsValue → Option α) (write : α → JsValue) : Prop :=
  ∀ (form : Form) (a : α), read (form.of (write a)) = some a

/-- `canonicalEqual` of two written values is equality. -/
theorem canonicalEqual_iff {α : Type} {read : JsValue → Option α} {write : α → JsValue}
    (law : Reads read write) (a b : α) : canonicalEqual (write a) (write b) = true ↔ a = b := by
  simp only [canonicalEqual, decide_eq_true_eq]
  constructor
  · intro same
    have parsed : some (reparse (write a)) = some (reparse (write b)) := by
      rw [← parseJson_canonicalString, ← parseJson_canonicalString, same]
    have value : reparse (write a) = reparse (write b) := Option.some.inj parsed
    have read_eq : read (Form.parsed.of (write a)) = read (Form.parsed.of (write b)) := by
      rw [Form.of, Form.of, value]
    rw [law .parsed a, law .parsed b] at read_eq
    exact Option.some.inj read_eq
  · rintro rfl
    rfl

/-! ### Texts -/

section CheckedText

variable (P : JsString → Prop) [DecidablePred P]

/-- A string that passes a check. -/
def checkedText : JsValue → Option { s : JsString // P s }
  | .string s => if h : P s then some ⟨s, h⟩ else none
  | _ => none

theorem checkedText_reads : Reads (checkedText P) fun s => .string s.val := by
  intro form s
  simp only [Form.of_string, checkedText, dif_pos s.property]

end CheckedText

/-- `OPAQUE_ID_PATTERN` -/
def IsOpaqueId : JsString → Prop
  | [] => False
  | u :: rest => isAlphanumeric u = true ∧ rest.length ≤ 127 ∧ ∀ v ∈ rest, isOpaqueUnit v = true

instance : DecidablePred IsOpaqueId
  | [] => .isFalse id
  | _ :: _ => inferInstanceAs (Decidable (_ ∧ _ ∧ _))

abbrev OpaqueId := { s : JsString // IsOpaqueId s }

def canonicalOpaqueId : JsValue → Option OpaqueId := checkedText IsOpaqueId

/-- `SHA256_PATTERN` -/
def IsSha256 (s : JsString) : Prop := s.length = 64 ∧ ∀ u ∈ s, isLowerHex u = true

instance : DecidablePred IsSha256 := fun _ => inferInstanceAs (Decidable (_ ∧ _))

/-- A digest as hexadecimal text. -/
abbrev Checksum := { s : JsString // IsSha256 s }

def sha256Text : JsValue → Option Checksum := checkedText IsSha256

def maxPathBytes : Nat := 4095

def IsAbsolutePath (s : JsString) : Prop :=
  assertLosslessString s maxPathBytes ∧ (0 : UInt16) ∉ s ∧ isAbsolute s = true ∧
    resolveAbsolute s = s ∧ s ≠ js "/"

instance : DecidablePred IsAbsolutePath := fun _ => inferInstanceAs (Decidable (_ ∧ _ ∧ _ ∧ _ ∧ _))

abbrev AbsolutePath := { s : JsString // IsAbsolutePath s }

def canonicalAbsolutePath : JsValue → Option AbsolutePath := checkedText IsAbsolutePath

def maxPhysicalObjectIdBytes : Nat := 512

def IsObjectId (s : JsString) : Prop :=
  assertLosslessString s maxPhysicalObjectIdBytes ∧ 0 < s.length ∧ (0 : UInt16) ∉ s

instance : DecidablePred IsObjectId := fun _ => inferInstanceAs (Decidable (_ ∧ _ ∧ _))

abbrev ObjectId := { s : JsString // IsObjectId s }

def canonicalObjectId : JsValue → Option ObjectId := checkedText IsObjectId

/-- The JSON form of a checked text. -/
def textJson {P : JsString → Prop} (s : { s : JsString // P s }) : JsValue := .string s.val

theorem canonicalOpaqueId_reads : Reads canonicalOpaqueId textJson := checkedText_reads _
theorem sha256Text_reads : Reads sha256Text textJson := checkedText_reads _
theorem canonicalAbsolutePath_reads : Reads canonicalAbsolutePath textJson := checkedText_reads _
theorem canonicalObjectId_reads : Reads canonicalObjectId textJson := checkedText_reads _

/-! ### Unsigned integers -/

/-- `DECIMAL_PATTERN` -/
def IsDecimal (s : JsString) : Prop :=
  s = js "0" ∨ (s ≠ [] ∧ s.head? ≠ some 48 ∧ ∀ u ∈ s, isDigit u = true)

instance : DecidablePred IsDecimal := fun _ => inferInstanceAs (Decidable (_ ∨ _))

/-- An unsigned 64-bit integer; its JSON form is its decimal text. -/
abbrev Uint64 := { n : Nat // n < 2 ^ 64 }

theorem uint64_zero : 0 < 2 ^ 64 := Nat.two_pow_pos 64

abbrev PositiveUint64 := { n : Nat // 0 < n ∧ n < 2 ^ 64 }

/-- The text and range checks of `canonicalUint64`. -/
def uint64Text : JsValue → Option Nat
  | .string s => if s.length ≤ 20 ∧ IsDecimal s then some (digitsValue s) else none
  | _ => none

def canonicalUint64 (value : JsValue) : Option Uint64 := do
  let n ← uint64Text value
  if h : n < 2 ^ 64 then some ⟨n, h⟩ else none

/-- `canonicalUint64` with `positive: true`. -/
def canonicalPositiveUint64 (value : JsValue) : Option PositiveUint64 := do
  let n ← uint64Text value
  if h : 0 < n ∧ n < 2 ^ 64 then some ⟨n, h⟩ else none

/-- The JSON form of an unsigned integer. -/
def uint64Json {P : Nat → Prop} (n : { n : Nat // P n }) : JsValue := .string (decimal n.val)

theorem isDecimal_decimal (n : Nat) : IsDecimal (decimal n) := by
  by_cases zero : n = 0
  · subst n
    exact .inl rfl
  · exact .inr ⟨decimal_ne_nil n, decimal_head zero, decimal_all_digits n⟩

theorem decimal_length_le {n : Nat} (h : n < 2 ^ 64) : (decimal n).length ≤ 20 := by
  unfold decimal
  split
  · decide
  · rename_i nonzero
    rw [List.length_reverse, List.length_map]
    exact (Nat.digits_length_le_iff (by decide) n).mpr (h.trans (by decide))

theorem uint64Text_decimal {n : Nat} (h : n < 2 ^ 64) : uint64Text (.string (decimal n)) = some n := by
  rw [uint64Text, if_pos ⟨decimal_length_le h, isDecimal_decimal n⟩, digitsValue_decimal]

theorem canonicalUint64_reads : Reads canonicalUint64 uint64Json := by
  intro form n
  simp only [uint64Json, Form.of_string, canonicalUint64, uint64Text_decimal n.property,
    Option.bind_eq_bind, Option.bind_some, dif_pos n.property]

theorem canonicalPositiveUint64_reads : Reads canonicalPositiveUint64 uint64Json := by
  intro form n
  simp only [uint64Json, Form.of_string, canonicalPositiveUint64, uint64Text_decimal n.property.2,
    Option.bind_eq_bind, Option.bind_some, dif_pos n.property]

theorem decimal_digitsValue {s : JsString} (h : IsDecimal s) : decimal (digitsValue s) = s := by
  obtain rfl | ⟨nonempty, lead, all⟩ := h
  · rfl
  · have units : ∀ u ∈ s, 48 ≤ u.toNat ∧ u.toNat ≤ 57 := fun u member => by
      simpa [isDigit] using all u member
    let digits := (s.map fun u => u.toNat - 48).reverse
    have small : ∀ d ∈ digits, d < 10 := by
      intro d member
      obtain ⟨u, inside, rfl⟩ := List.mem_map.mp (List.mem_reverse.mp member)
      have := units u inside
      omega
    have text : (digits.map digitUnit).reverse = s := by
      rw [← List.map_reverse, List.reverse_reverse, List.map_map]
      refine (List.map_congr_left fun u inside => ?_).trans (List.map_id s)
      have := units u inside
      have unit : 48 + (u.toNat - 48) = u.toNat := by omega
      simp only [Function.comp_apply, digitUnit, unit, UInt16.ofNat_toNat, id]
    have value : digitsValue s = Nat.ofDigits 10 digits := by
      rw [← text, digitsValue_reverse_map small]
    obtain ⟨u, rest, rfl⟩ := List.exists_cons_of_ne_nil nonempty
    have last (h : digits ≠ []) : digits.getLast h ≠ 0 := by
      have first : digits.getLast h = u.toNat - 48 := by
        simp only [digits, List.map_cons, List.reverse_cons, List.getLast_append_singleton]
      have range := units u List.mem_cons_self
      intro zero
      have : u.toNat = 48 := by omega
      exact lead (by rw [List.head?_cons, Option.some.injEq]; exact UInt16.toNat_inj.mp this)
    have back : Nat.digits 10 (digitsValue (u :: rest)) = digits := by
      rw [value, Nat.digits_ofDigits 10 (by decide) digits small last]
    have nonzero : digitsValue (u :: rest) ≠ 0 := by
      intro zero
      rw [zero, Nat.digits_zero] at back
      have : digits.length = (u :: rest).length := by simp [digits]
      rw [← back] at this
      cases this
    rw [decimal, if_neg nonzero, back, text]

/-- An unsigned integer determines the text it was read from. -/
theorem uint64Text_eq_some {value : JsValue} {n : Nat} (h : uint64Text value = some n) :
    value = .string (decimal n) := by
  cases value with
  | string s =>
      simp only [uint64Text, Option.ite_none_right_eq_some, Option.some.injEq] at h
      obtain ⟨⟨-, valid⟩, rfl⟩ := h
      rw [decimal_digitsValue valid]
  | _ => cases h

/-- `incrementUint64` -/
def incrementUint64 (n : Nat) : Option Nat := if 0 < n ∧ n < 2 ^ 64 - 1 then some (n + 1) else none

/-- `incrementNonnegativeUint64` -/
def incrementNonnegativeUint64 (n : Nat) : Option Nat := if n < 2 ^ 64 - 1 then some (n + 1) else none

/-! ### Counters -/

def maxFrameCount : Nat := 65535
def maxUint32 : Nat := 4294967295

/-- `Number.isSafeInteger(value) && value >= 0` -/
def safeInteger : JsValue → Option Nat
  | .number x => safeNat? x
  | _ => none

/-- The sequence of a delta frame. -/
abbrev Sequence := { n : Nat // 1 ≤ n ∧ n ≤ maxFrameCount }

abbrev CheckpointSequence := { n : Nat // 1 ≤ n ∧ n ≤ maxUint32 }

/-- A count of a checkpoint frame. -/
abbrev Count := { n : Nat // n ≤ maxUint32 }

section CheckedNumber

variable (P : Nat → Prop) [DecidablePred P]

/-- A nonnegative safe integer that passes a check. -/
def checkedNumber (value : JsValue) : Option { n : Nat // P n } := do
  let n ← safeInteger value
  if h : P n then some ⟨n, h⟩ else none

end CheckedNumber

def canonicalSequence : JsValue → Option Sequence := checkedNumber _
def canonicalCheckpointSequence : JsValue → Option CheckpointSequence := checkedNumber _
def canonicalCount : JsValue → Option Count := checkedNumber _

def numberJson {P : Nat → Prop} (n : { n : Nat // P n }) : JsValue := .number (ofNat n.val)

theorem Form.of_ofNat (form : Form) {n : Nat} (h : n < 2 ^ 53) :
    form.of (.number (ofNat n)) = .number (ofNat n) := by
  cases form with
  | held => rfl
  | parsed =>
      obtain ⟨d, -, finite⟩ := ofNat_eq h
      rw [Form.of, finite, reparse_number, settleNumber, Bool.false_and]

theorem checkedNumber_reads {P : Nat → Prop} [DecidablePred P] (small : ∀ n, P n → n < 2 ^ 53) :
    Reads (checkedNumber P) numberJson := by
  intro form n
  have bound := small n.val n.property
  simp only [numberJson, form.of_ofNat bound, checkedNumber, safeInteger, safeNat?_ofNat bound,
    Option.bind_eq_bind, Option.bind_some, dif_pos n.property]

theorem canonicalSequence_reads : Reads canonicalSequence numberJson :=
  checkedNumber_reads fun _ h => lt_of_le_of_lt h.2 (by decide)

theorem canonicalCheckpointSequence_reads : Reads canonicalCheckpointSequence numberJson :=
  checkedNumber_reads fun _ h => lt_of_le_of_lt h.2 (by decide)

theorem canonicalCount_reads : Reads canonicalCount numberJson :=
  checkedNumber_reads fun _ h => lt_of_le_of_lt h (by decide)

/-! ### Enumerations -/

section Enumeration

variable {α : Type} (all : List α) (text : α → JsString)

/-- The member of an enumeration with the given text. -/
def enumeration : JsValue → Option α
  | .string s => all.find? fun a => text a = s
  | _ => none

end Enumeration

/-! ### Nullable values -/

section Nullable

variable {α : Type}

def nullable (read : JsValue → Option α) : JsValue → Option (Option α)
  | .null => some none
  | value => (read value).map some

def nullableJson (write : α → JsValue) : Option α → JsValue
  | none => .null
  | some a => write a

theorem nullable_reads {read : JsValue → Option α} {write : α → JsValue} (law : Reads read write)
    (notNull : read .null = none) : Reads (nullable read) (nullableJson write) := by
  rintro form (_ | a)
  · rw [nullableJson, form.of_null]
    rfl
  · have value := law form a
    rw [nullableJson]
    cases shape : form.of (write a) with
    | null => rw [shape, notNull] at value; cases value
    | _ => rw [shape] at value; simp only [nullable, value, Option.map_some]

end Nullable

def canonicalPreviousChecksum : JsValue → Option (Option Checksum) := nullable sha256Text

theorem canonicalPreviousChecksum_reads : Reads canonicalPreviousChecksum (nullableJson textJson) :=
  nullable_reads sha256Text_reads rfl

/-! ### Canonical objects -/

/-- An object `canonicalObject` returns: a request or a result. -/
structure CanonicalObject where
  value : JsValue
  canonical : canonicalObject value = some value

/-- `canonicalObject`, keeping that its result is canonical. -/
def readCanonicalObject (value : JsValue) : Option CanonicalObject :=
  match h : canonicalObject value with
  | some w => some ⟨w, (canonicalObject_sound h).1⟩
  | none => none

theorem readCanonicalObject_reads : Reads readCanonicalObject CanonicalObject.value := by
  intro form object
  have same : form.of object.value = object.value := by
    cases form with
    | held => rfl
    | parsed => exact (canonicalObject_sound object.canonical).2.1
  rw [same]
  unfold readCanonicalObject
  split
  · rename_i w h
    have same : w = object.value := Option.some.inj (h.symm.trans object.canonical)
    subst same
    rfl
  · rename_i h
    rw [object.canonical] at h
    cases h

instance : DecidableEq CanonicalObject := fun a b =>
  decidable_of_iff _ (canonicalEqual_iff readCanonicalObject_reads a b)

end PortableCodex.ProviderState
