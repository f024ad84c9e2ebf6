import Mathlib.Tactic.IntervalCases
import PortableCodex.Js.Utf8

/-!
Buffers: big-endian integers, hexadecimal text and SHA-256.

`sha256` is `createHash("sha256")` over the concatenation of what `update` was given. The
development uses of it that a digest has 32 bytes; that it is executable lets concrete frames
be computed.
-/

namespace PortableCodex.Js

/-! ### Integers and text -/

/-- `buffer.writeUInt32BE(n, …)` -/
def uint32BE (n : Nat) : Bytes :=
  [byte (n / 0x1000000 % 0x100), byte (n / 0x10000 % 0x100), byte (n / 0x100 % 0x100), byte (n % 0x100)]

/-- The big-endian value of bytes. -/
def valueBE (bytes : Bytes) : Nat := bytes.foldl (fun acc b => acc * 0x100 + b.toNat) 0

/-- `buffer.subarray(start, end)` of an end no smaller than the start. -/
def subarray (bytes : Bytes) (start stop : Nat) : Bytes := (bytes.take stop).drop start

/-- `buffer.readUInt32BE(offset)` inside the buffer. -/
def readUInt32BE (bytes : Bytes) (offset : Nat) : Nat := valueBE (subarray bytes offset (offset + 4))

@[simp] theorem uint32BE_length (n : Nat) : (uint32BE n).length = 4 := rfl

@[simp] theorem valueBE_uint32BE {n : Nat} (h : n < 2 ^ 32) : valueBE (uint32BE n) = n := by
  simp only [valueBE, uint32BE, List.foldl_cons, List.foldl_nil]
  rw [byte_toNat (Nat.mod_lt _ (by decide)), byte_toNat (Nat.mod_lt _ (by decide)),
    byte_toNat (Nat.mod_lt _ (by decide)), byte_toNat (Nat.mod_lt _ (by decide))]
  omega

theorem subarray_length {bytes : Bytes} {start stop : Nat} (h : stop ≤ bytes.length) :
    (subarray bytes start stop).length = stop - start := by
  rw [subarray, List.length_drop, List.length_take, Nat.min_eq_left h]

/-- The middle of three pieces. -/
theorem subarray_append (before middle after : Bytes) :
    subarray (before ++ (middle ++ after)) before.length (before.length + middle.length) = middle := by
  rw [subarray, ← List.append_assoc, ← List.length_append, List.take_left, List.drop_left]

theorem subarray_add (bytes : Bytes) {start middle stop : Nat} (first : start ≤ middle)
    (second : middle ≤ stop) :
    subarray bytes start middle ++ subarray bytes middle stop = subarray bytes start stop := by
  have head : (bytes.take middle).drop start = ((bytes.take stop).take middle).drop start := by
    rw [List.take_take, Nat.min_eq_left second]
  rw [subarray, subarray, subarray, head]
  have split := List.take_append_drop (middle - start) ((bytes.take stop).drop start)
  rw [List.drop_drop, List.take_drop, Nat.add_sub_cancel' first] at split
  exact split

/-- A subarray of a subarray. -/
theorem subarray_subarray (bytes : Bytes) {start stop first last : Nat} (inside : start + last ≤ stop) :
    subarray (subarray bytes start stop) first last = subarray bytes (start + first) (start + last) := by
  rw [subarray, subarray, subarray, List.take_drop, List.drop_drop, List.take_take,
    Nat.min_eq_left inside]

theorem subarray_take (bytes : Bytes) (start : Nat) {stop size : Nat} (inside : stop ≤ size) :
    subarray (bytes.take size) start stop = subarray bytes start stop := by
  rw [subarray, List.take_take, Nat.min_eq_left inside, subarray]

theorem subarray_self (bytes : Bytes) : subarray bytes 0 bytes.length = bytes := by
  rw [subarray, List.take_length, List.drop_zero]

theorem readUInt32BE_subarray (bytes : Bytes) {start stop offset : Nat}
    (inside : start + (offset + 4) ≤ stop) :
    readUInt32BE (subarray bytes start stop) offset = readUInt32BE bytes (start + offset) := by
  rw [readUInt32BE, subarray_subarray bytes inside, readUInt32BE, Nat.add_assoc]

theorem uint32BE_valueBE {bytes : Bytes} (h : bytes.length = 4) : uint32BE (valueBE bytes) = bytes := by
  match bytes, h with
  | [a, b, c, d], _ =>
      have := a.toNat_lt
      have := b.toNat_lt
      have := c.toNat_lt
      have := d.toNat_lt
      have digit (m : Nat) (x : UInt8) (e : m = x.toNat) : byte m = x := by
        rw [e]
        exact UInt8.ofNat_toNat
      simp only [valueBE, List.foldl_cons, List.foldl_nil, uint32BE]
      rw [digit _ a (by omega), digit _ b (by omega), digit _ c (by omega), digit _ d (by omega)]

/-- `buffer.toString("hex")` -/
def hex (bytes : Bytes) : JsString :=
  bytes.flatMap fun b => [hexUnit (b.toNat / 16), hexUnit (b.toNat % 16)]

theorem hexUnit_isLowerHex {n : Nat} (h : n < 16) : isLowerHex (hexUnit n) = true := by
  interval_cases n <;> decide

@[simp] theorem hex_length (bytes : Bytes) : (hex bytes).length = 2 * bytes.length := by
  induction bytes with
  | nil => rfl
  | cons b bytes ih =>
      rw [hex, List.flatMap_cons, List.length_append, ← hex, ih, List.length_cons]
      simp only [List.length_cons, List.length_nil]
      omega

theorem hex_all (bytes : Bytes) : ∀ u ∈ hex bytes, isLowerHex u = true := by
  intro u member
  obtain ⟨b, -, unit⟩ := List.mem_flatMap.mp member
  have bound := b.toNat_lt
  rcases List.mem_pair.mp unit with rfl | rfl
  · exact hexUnit_isLowerHex (by omega)
  · exact hexUnit_isLowerHex (by omega)

/-! ### SHA-256 -/

namespace Sha256

structure State where
  a : UInt32
  b : UInt32
  c : UInt32
  d : UInt32
  e : UInt32
  f : UInt32
  g : UInt32
  h : UInt32

def initial : State :=
  ⟨0x6a09e667, 0xbb67ae85, 0x3c6ef372, 0xa54ff53a, 0x510e527f, 0x9b05688c, 0x1f83d9ab, 0x5be0cd19⟩

def constants : List UInt32 :=
  [0x428a2f98, 0x71374491, 0xb5c0fbcf, 0xe9b5dba5, 0x3956c25b, 0x59f111f1, 0x923f82a4, 0xab1c5ed5,
   0xd807aa98, 0x12835b01, 0x243185be, 0x550c7dc3, 0x72be5d74, 0x80deb1fe, 0x9bdc06a7, 0xc19bf174,
   0xe49b69c1, 0xefbe4786, 0x0fc19dc6, 0x240ca1cc, 0x2de92c6f, 0x4a7484aa, 0x5cb0a9dc, 0x76f988da,
   0x983e5152, 0xa831c66d, 0xb00327c8, 0xbf597fc7, 0xc6e00bf3, 0xd5a79147, 0x06ca6351, 0x14292967,
   0x27b70a85, 0x2e1b2138, 0x4d2c6dfc, 0x53380d13, 0x650a7354, 0x766a0abb, 0x81c2c92e, 0x92722c85,
   0xa2bfe8a1, 0xa81a664b, 0xc24b8b70, 0xc76c51a3, 0xd192e819, 0xd6990624, 0xf40e3585, 0x106aa070,
   0x19a4c116, 0x1e376c08, 0x2748774c, 0x34b0bcb5, 0x391c0cb3, 0x4ed8aa4a, 0x5b9cca4f, 0x682e6ff3,
   0x748f82ee, 0x78a5636f, 0x84c87814, 0x8cc70208, 0x90befffa, 0xa4506ceb, 0xbef9a3f7, 0xc67178f2]

def rotr (x : UInt32) (n : UInt32) : UInt32 := (x >>> n) ||| (x <<< (32 - n))

/-- One round with constant `k` and schedule word `w`. -/
def round (s : State) (k w : UInt32) : State :=
  let s1 := rotr s.e 6 ^^^ rotr s.e 11 ^^^ rotr s.e 25
  let ch := (s.e &&& s.f) ^^^ (~~~s.e &&& s.g)
  let t1 := s.h + s1 + ch + k + w
  let s0 := rotr s.a 2 ^^^ rotr s.a 13 ^^^ rotr s.a 22
  let maj := (s.a &&& s.b) ^^^ (s.a &&& s.c) ^^^ (s.b &&& s.c)
  ⟨t1 + (s0 + maj), s.a, s.b, s.c, s.d + t1, s.e, s.f, s.g⟩

/-- The schedule word sixteen rounds after the head of the window. -/
def nextWord (window : List UInt32) : UInt32 :=
  let w (i : Nat) := window.getD i 0
  let s0 := rotr (w 1) 7 ^^^ rotr (w 1) 18 ^^^ (w 1 >>> 3)
  let s1 := rotr (w 14) 17 ^^^ rotr (w 14) 19 ^^^ (w 14 >>> 10)
  w 0 + s0 + w 9 + s1

/-- The rounds of a block; the window holds the next sixteen schedule words. -/
def rounds : List UInt32 → List UInt32 → State → State
  | [], _, s => s
  | k :: ks, window, s => rounds ks (window.tail ++ [nextWord window]) (round s k (window.getD 0 0))

def words : Bytes → List UInt32
  | a :: b :: c :: d :: rest => UInt32.ofNat (valueBE [a, b, c, d]) :: words rest
  | _ => []

def compress (s : State) (block : Bytes) : State :=
  let t := rounds constants (words block) s
  ⟨s.a + t.a, s.b + t.b, s.c + t.c, s.d + t.d, s.e + t.e, s.f + t.f, s.g + t.g, s.h + t.h⟩

/-- The message with its padding: one bit, zeros to a multiple of 64 bytes, and its length. -/
def pad (message : Bytes) : Bytes :=
  let bits := 8 * message.length
  message ++ 0x80 :: (List.replicate ((119 - message.length % 64) % 64) 0 ++
    (uint32BE (bits / 2 ^ 32 % 2 ^ 32) ++ uint32BE (bits % 2 ^ 32)))

/-- The given number of 64-byte blocks, in order. -/
def blocks : Nat → Bytes → State → State
  | 0, _, s => s
  | n + 1, bytes, s => blocks n (bytes.drop 64) (compress s (bytes.take 64))

def output (s : State) : Bytes :=
  [s.a, s.b, s.c, s.d, s.e, s.f, s.g, s.h].flatMap fun w => uint32BE w.toNat

end Sha256

/-- `createHash("sha256").update(message).digest()` -/
def sha256 (message : Bytes) : Bytes :=
  let padded := Sha256.pad message
  Sha256.output (Sha256.blocks (padded.length / 64) padded Sha256.initial)

@[simp] theorem sha256_length (message : Bytes) : (sha256 message).length = 32 := rfl

example : hex (sha256 (encodeUtf8 (js "abc"))) =
    js "ba7816bf8f01cfea414140de5dae2223b00361a396177a9cb410ff61f20015ad" := by decide +kernel

end PortableCodex.Js
