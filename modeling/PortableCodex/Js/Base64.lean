import PortableCodex.Js.Utf8

/-!
The `base64url` encoding of buffers, without padding.

`base64Url` is `buffer.toString("base64url")` and `fromBase64Url` is `Buffer.from(text, "base64url")` of a
text over the alphabet: trailing bits are dropped, so two texts can have the same bytes, but the text of
bytes denotes them (`fromBase64Url_base64Url`).
-/

namespace PortableCodex.Js

/-- The unit of six bits. -/
def base64Unit (d : Nat) : UInt16 :=
  UInt16.ofNat (if d < 26 then 65 + d else if d < 52 then 71 + d else if d < 62 then d - 4
    else if d = 62 then 45 else 95)

/-- The six bits of a unit of the alphabet. -/
def base64Value (u : UInt16) : Nat :=
  if 97 ≤ u.toNat then u.toNat - 71 else if u.toNat = 95 then 63 else if 65 ≤ u.toNat then u.toNat - 65
  else if u.toNat = 45 then 62 else u.toNat + 4

/-- `[A-Za-z0-9_-]` -/
def isBase64Unit (u : UInt16) : Bool := isAlphanumeric u ∨ u = 95 ∨ u = 45

def base64Url : Bytes → JsString
  | [] => []
  | [a] => [base64Unit (a.toNat / 4), base64Unit (a.toNat % 4 * 16)]
  | [a, b] =>
      [base64Unit (a.toNat / 4), base64Unit (a.toNat % 4 * 16 + b.toNat / 16), base64Unit (b.toNat % 16 * 4)]
  | a :: b :: c :: rest =>
      base64Unit (a.toNat / 4) :: base64Unit (a.toNat % 4 * 16 + b.toNat / 16) ::
        base64Unit (b.toNat % 16 * 4 + c.toNat / 64) :: base64Unit (c.toNat % 64) :: base64Url rest

def fromBase64Url : JsString → Bytes
  | [] => []
  | [_] => []
  | [p, q] => [byte (base64Value p * 4 + base64Value q / 16)]
  | [p, q, r] =>
      [byte (base64Value p * 4 + base64Value q / 16), byte (base64Value q % 16 * 16 + base64Value r / 4)]
  | p :: q :: r :: s :: rest =>
      byte (base64Value p * 4 + base64Value q / 16) :: byte (base64Value q % 16 * 16 + base64Value r / 4) ::
        byte (base64Value r % 4 * 64 + base64Value s) :: fromBase64Url rest

example : base64Url [102, 111, 111, 98, 97] = js "Zm9vYmE" := by decide

theorem base64Value_unit {d : Nat} (h : d < 64) : base64Value (base64Unit d) = d := by
  have all : ∀ d < 64, base64Value (base64Unit d) = d := by decide
  exact all d h

theorem isBase64Unit_unit {d : Nat} (h : d < 64) : isBase64Unit (base64Unit d) = true := by
  have all : ∀ d < 64, isBase64Unit (base64Unit d) = true := by decide
  exact all d h

theorem byte_eq {n : Nat} {a : UInt8} (h : n = a.toNat) : byte n = a := by
  rw [h]
  exact UInt8.ofNat_toNat

theorem fromBase64Url_base64Url : ∀ bytes : Bytes, fromBase64Url (base64Url bytes) = bytes
  | [] => rfl
  | [a] => by
      have bound := a.toNat_lt
      simp only [base64Url, fromBase64Url]
      rw [base64Value_unit (by omega), base64Value_unit (by omega), byte_eq (a := a) (by omega)]
  | [a, b] => by
      have first := a.toNat_lt
      have second := b.toNat_lt
      simp only [base64Url, fromBase64Url]
      rw [base64Value_unit (by omega), base64Value_unit (by omega), base64Value_unit (by omega),
        byte_eq (a := a) (by omega), byte_eq (a := b) (by omega)]
  | a :: b :: c :: rest => by
      have first := a.toNat_lt
      have second := b.toNat_lt
      have third := c.toNat_lt
      simp only [base64Url, fromBase64Url]
      rw [base64Value_unit (by omega), base64Value_unit (by omega), base64Value_unit (by omega),
        base64Value_unit (by omega), byte_eq (a := a) (by omega), byte_eq (a := b) (by omega),
        byte_eq (a := c) (by omega), fromBase64Url_base64Url rest]

theorem base64Url_all : ∀ bytes : Bytes, ∀ u ∈ base64Url bytes, isBase64Unit u = true
  | [] => nofun
  | [a] => by
      have bound := a.toNat_lt
      simp only [base64Url, List.forall_mem_cons]
      exact ⟨isBase64Unit_unit (by omega), isBase64Unit_unit (by omega), nofun⟩
  | [a, b] => by
      have first := a.toNat_lt
      have second := b.toNat_lt
      simp only [base64Url, List.forall_mem_cons]
      exact ⟨isBase64Unit_unit (by omega), isBase64Unit_unit (by omega), isBase64Unit_unit (by omega), nofun⟩
  | a :: b :: c :: rest => by
      have first := a.toNat_lt
      have second := b.toNat_lt
      have third := c.toNat_lt
      simp only [base64Url, List.forall_mem_cons]
      exact ⟨isBase64Unit_unit (by omega), isBase64Unit_unit (by omega), isBase64Unit_unit (by omega),
        isBase64Unit_unit (by omega), base64Url_all rest⟩

theorem base64Url_ne_nil {bytes : Bytes} (h : bytes ≠ []) : base64Url bytes ≠ [] := by
  intro empty
  have back := fromBase64Url_base64Url bytes
  rw [empty] at back
  exact h back.symm

end PortableCodex.Js
