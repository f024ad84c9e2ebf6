import PortableCodex.ProviderState.CodecLaws

/-!
Every frame fits into its envelope.

`Within bound v` says how many bytes the canonical text of a value has at most. The bounds of the
fields add up over the records (`within_record`), so that each frame stays below
`framePayloadBound`, which is half of what `encodeCanonicalFrame` allows.
-/

namespace PortableCodex.ProviderState

open Js

/-! ### Texts -/

/-- A bound on the bytes of a code unit outside a pair. -/
def unitBytes (u : UInt16) : Nat := if u.toNat < 0x80 then 1 else 3

def unitsBytes (s : JsString) : Nat := (s.map unitBytes).sum

theorem unitsBytes_append (s t : JsString) : unitsBytes (s ++ t) = unitsBytes s + unitsBytes t := by
  rw [unitsBytes, List.map_append, List.sum_append, unitsBytes, unitsBytes]

theorem unitsBytes_le (s : JsString) : unitsBytes s ≤ 3 * s.length := by
  induction s with
  | nil => exact Nat.zero_le _
  | cons u s ih =>
      have unit : unitBytes u ≤ 3 := by unfold unitBytes; split <;> omega
      rw [unitsBytes, List.map_cons, List.sum_cons, ← unitsBytes, List.length_cons]
      omega

theorem encodeUnit_length_le (u : UInt16) : (encodeUnit u).length ≤ unitBytes u := by
  unfold encodeUnit unitBytes
  split
  · exact Nat.le_refl 1
  · split
    · exact Nat.le_succ 2
    · split <;> exact Nat.le_refl 3

theorem byteLength_le_unitsBytes (s : JsString) : byteLength s ≤ unitsBytes s := by
  induction s using encodeUtf8.induct with
  | case1 => exact Nat.zero_le _
  | case2 u =>
      have unit := encodeUnit_length_le u
      rw [byteLength, encodeUtf8]
      exact unit
  | case3 u v rest pair ih =>
      have high : unitBytes u = 3 := by
        rw [Bool.and_eq_true, isHighSurrogate, decide_eq_true_eq] at pair
        exact if_neg (by omega)
      rw [byteLength, encodeUtf8, if_pos pair, List.length_append]
      rw [unitsBytes, List.map_cons, List.map_cons, List.sum_cons, List.sum_cons, ← unitsBytes, high]
      have four : (encodePair u v).length = 4 := rfl
      have low : 1 ≤ unitBytes v := by unfold unitBytes; split <;> omega
      rw [byteLength] at ih
      omega
  | case4 u v rest single ih =>
      have unit := encodeUnit_length_le u
      rw [byteLength, encodeUtf8, if_neg single, List.length_append, unitsBytes, List.map_cons,
        List.sum_cons, ← unitsBytes]
      rw [byteLength] at ih
      omega

theorem unitsBytes_quoteUnit (u : UInt16) : unitsBytes (quoteUnit u) ≤ 6 := by
  have hexAscii (n : Nat) (small : n < 16) : unitBytes (hexUnit n) = 1 := by
    interval_cases n <;> rfl
  have bound := u.toNat_lt
  unfold quoteUnit
  split_ifs
  all_goals first | decide | skip
  · rw [unicodeEscape, unitsBytes_append]
    simp only [unitsBytes, List.map_cons, List.map_nil, List.sum_cons, List.sum_nil]
    rw [hexAscii _ (by omega), hexAscii _ (Nat.mod_lt _ (by decide)), hexAscii _ (Nat.mod_lt _ (by decide)),
      hexAscii _ (Nat.mod_lt _ (by decide))]
    decide
  · exact (unitsBytes_le [u]).trans (by decide : 3 * 1 ≤ 6)

theorem unitsBytes_quoteUnits (s : JsString) : unitsBytes (quoteUnits s) ≤ 6 * s.length := by
  induction s using quoteUnits.induct with
  | case1 => exact le_rfl
  | case2 u => exact unitsBytes_quoteUnit u
  | case3 u v rest pair ih =>
      have both := unitsBytes_le [u, v]
      rw [quoteUnits, if_pos pair]
      show unitsBytes ([u, v] ++ quoteUnits rest) ≤ _
      rw [unitsBytes_append]
      simp only [List.length_cons, List.length_nil] at both ⊢
      omega
  | case4 u v rest single ih =>
      have unit := unitsBytes_quoteUnit u
      rw [quoteUnits, if_neg single, unitsBytes_append, List.length_cons]
      omega

/-- Each code unit of a quoted string takes an escape of six bytes at most. -/
theorem byteLength_quote_le (s : JsString) : byteLength (quote s) ≤ 6 * s.length + 2 := by
  have units := byteLength_le_unitsBytes (quoteUnits s)
  have escaped := unitsBytes_quoteUnits s
  rw [quote, byteLength_bracket _ (by decide) (by decide)]
  omega

/-! ### Values -/

/-- The canonical text of a value has at most so many bytes. -/
def Within (bound : Nat) (v : JsValue) : Prop := byteLength (canonicalString v) ≤ bound

theorem Within.mono {bound next : Nat} {v : JsValue} (h : Within bound v) (le : bound ≤ next) :
    Within next v := Nat.le_trans h le

theorem within_null : Within 4 .null := Nat.le_refl 4

theorem within_string (s : JsString) : Within (6 * s.length + 2) (.string s) := byteLength_quote_le s

theorem within_number {n : Nat} (h : n < 2 ^ 53) : Within 14400 (.number (ofNat n)) := by
  have length := stringifyNumber_ofNat_length_le h
  have bytes := byteLength_le_unitsBytes (stringifyNumber (ofNat n))
  have units := unitsBytes_le (stringifyNumber (ofNat n))
  show byteLength (stringifyNumber (ofNat n)) ≤ _
  omega

theorem memberBytes_sum (members : List (JsString × JsValue)) :
    ((members.map fun m => quote m.1 ++ 58 :: canonicalString m.2).map byteLength).sum + members.length =
      (members.map fun m => byteLength (quote m.1) + 2 + byteLength (canonicalString m.2)).sum := by
  induction members with
  | nil => rfl
  | cons m members ih =>
      simp only [List.map_cons, List.sum_cons, List.length_cons, byteLength_member]
      omega

/-- The bytes of an object are those of its members, with a colon and a comma for each. -/
theorem within_object {members : List (JsString × JsValue)} {bound : Nat}
    (h : (members.map fun m => byteLength (quote m.1) + 2 + byteLength (canonicalString m.2)).sum ≤ bound) :
    Within (2 + bound) (.object members) := by
  have texts : ((sortByKey (canonicalMembers members)).map fun m => quote m.1 ++ 58 :: m.2).Perm
      (members.map fun m => quote m.1 ++ 58 :: canonicalString m.2) := by
    refine ((sortByKey_perm _).map _).trans (List.Perm.of_eq ?_)
    rw [canonicalMembers_eq_mapValues, mapValues, List.map_map]
    rfl
  have bytes := memberBytes_sum members
  rw [Within, canonicalString, byteLength_bracket _ (by decide) (by decide), byteLength_joinComma,
    (texts.map byteLength).sum_eq, texts.length_eq, List.length_map]
  omega

/-- The bound of a record whose values have the given bounds. -/
def recordBound (keys : List JsString) (bounds : List Nat) : Nat :=
  2 + (List.zipWith (fun key bound => 6 * key.length + 4 + bound) keys bounds).sum

theorem within_record {keys : List JsString} {bounds : List Nat} {values : List JsValue}
    (h : List.Forall₂ Within bounds values) : Within (recordBound keys bounds) (record keys values) := by
  refine within_object ?_
  induction h generalizing keys with
  | nil => rw [List.zip_nil_right]; exact Nat.zero_le _
  | cons value _ ih =>
      cases keys with
      | nil => exact Nat.zero_le _
      | cons key keys =>
          have name := byteLength_quote_le key
          have rest := @ih keys
          rw [Within] at value
          simp only [List.zip_cons_cons, List.map_cons, List.sum_cons, List.zipWith_cons_cons]
          omega

section Fields

variable {α : Type} {write : α → JsValue} {bound : Nat}

theorem within_nullable (value : ∀ a, Within bound (write a)) (null : 4 ≤ bound) (o : Option α) :
    Within bound (nullableJson write o) := by
  cases o with
  | none => exact within_null.mono null
  | some a => exact value a

theorem within_text {P : JsString → Prop} {length : Nat} (short : ∀ s, P s → s.length ≤ length)
    (s : { s : JsString // P s }) : Within (6 * length + 2) (textJson s) := by
  have := short s.val s.property
  exact (within_string s.val).mono (by omega)

theorem within_enumeration {text : α → JsString} {length : Nat} (short : ∀ a, (text a).length ≤ length)
    (a : α) : Within (6 * length + 2) (.string (text a)) := by
  have := short a
  exact (within_string _).mono (by omega)

theorem within_opaqueId (id : OpaqueId) : Within 770 (textJson id) := by
  refine @within_text _ 128 (fun s valid => ?_) id
  cases s with
  | nil => exact valid.elim
  | cons u rest =>
      rw [List.length_cons]
      exact Nat.succ_le_succ valid.2.1

theorem within_checksum (checksum : Checksum) : Within 386 (textJson checksum) :=
  within_text (fun _ valid => valid.1.le) checksum

theorem within_path (path : AbsolutePath) : Within 24572 (textJson path) :=
  within_text (fun _ valid => valid.1.1) path

theorem within_objectId (id : ObjectId) : Within 3074 (textJson id) :=
  within_text (fun _ valid => valid.1.1) id

theorem within_uint64 {P : Nat → Prop} (small : ∀ n, P n → n < 2 ^ 64) (n : { n : Nat // P n }) :
    Within 122 (uint64Json n) := by
  have := decimal_length_le (small n.val n.property)
  exact (within_string _).mono (by omega)

theorem within_count {P : Nat → Prop} (small : ∀ n, P n → n ≤ maxUint32) (n : { n : Nat // P n }) :
    Within 14400 (numberJson n) :=
  within_number (lt_of_le_of_lt (small n.val n.property) (by decide))

theorem within_version (version : Version) : Within 14400 version.json :=
  within_number (by cases version <;> decide)

theorem within_kind (kind : Kind) : Within 200 (.string kind.text) :=
  (within_enumeration (fun kind => by cases kind <;> decide) kind).mono (by decide : 6 * 33 + 2 ≤ 200)

theorem within_lifecycle (lifecycle : Lifecycle) : Within 200 (.string lifecycle.text) :=
  (within_enumeration (fun lifecycle => by cases lifecycle <;> decide) lifecycle).mono
    (by decide : 6 * 33 + 2 ≤ 200)

theorem within_canonicalObject (object : CanonicalObject) : Within maxCanonicalBytes object.value :=
  (canonicalObject_sound object.canonical).2.2

end Fields

/-! ### Storages -/

theorem PhysicalIdentity.within (identity : PhysicalIdentity) : Within 5000 identity.json :=
  (within_record (.cons (within_opaqueId _) (.cons (within_opaqueId _)
    (.cons (within_objectId _) .nil)))).mono (by decide)

theorem Mount.within (mount : Mount) : Within 35000 mount.json :=
  (within_record (.cons (within_path _) (.cons mount.imageIdentity.within
    (.cons mount.rootIdentity.within .nil)))).mono (by decide)

theorem DataRoot.within (dataRoot : DataRoot) : Within 35000 dataRoot.json :=
  (within_record (.cons (within_path _) (.cons dataRoot.imageIdentity.within
    (.cons dataRoot.rootIdentity.within .nil)))).mono (by decide)

theorem WriterAuthority.within (authority : WriterAuthority) : Within 2000 authority.json :=
  (within_record (.cons (within_uint64 (fun _ range => range.2) _) (.cons (within_opaqueId _)
    (.cons (within_opaqueId _) .nil)))).mono (by decide)

theorem Attachment.within (attachment : Attachment) : Within 39000 attachment.json :=
  (within_record (.cons (within_opaqueId _) (.cons (within_opaqueId _) (.cons (within_opaqueId _)
    (.cons (within_uint64 (fun _ range => range) _) (.cons (within_path _) (.cons (within_opaqueId _)
    (.cons attachment.imageIdentity.within (.cons attachment.rootIdentity.within .nil))))))))).mono
      (by decide)

theorem StorageState.within (state : StorageState) : Within 150000 state.json :=
  (within_record (.cons (within_opaqueId _) (.cons (within_opaqueId _) (.cons (within_opaqueId _)
    (.cons (within_opaqueId _) (.cons (within_path _) (.cons (within_lifecycle _)
    (.cons (within_uint64 (fun _ range => range.2) _) (.cons (within_uint64 (fun _ range => range) _)
    (.cons (within_nullable WriterAuthority.within (by decide) _)
    (.cons (within_nullable Mount.within (by decide) _)
    (.cons (within_nullable PhysicalIdentity.within (by decide) _)
    (.cons (within_nullable DataRoot.within (by decide) _)
    (.cons (within_nullable Attachment.within (by decide) _) .nil)))))))))))))).mono (by decide)

theorem ExpectedStorage.within (expected : ExpectedStorage) : Within 500 expected.json :=
  (within_record (.cons (within_lifecycle _) (.cons (within_uint64 (fun _ range => range.2) _) .nil))).mono
    (by decide)

theorem StoredStorage.within (stored : StoredStorage) : Within 152000 stored.json := by
  cases stored with
  | bare storage => exact storage.within.mono (by decide)
  | wrapped wrapper =>
      exact (within_record (.cons (within_nullable within_opaqueId (by decide) _)
        (.cons wrapper.storage.within .nil))).mono (by decide)

/-! ### Frames -/

theorem Operation.within (operation : Operation) : Within 1900000 operation.json := by
  have prepared (state : JsString) (short : state.length ≤ 9) : List.Forall₂ Within
      [200, 770, 386, 122, maxCanonicalBytes, 56, 770, 150000]
      [.string operation.kind.text, textJson operation.operationId, textJson operation.preparedChecksum,
        uint64Json operation.preparedStateRevision, operation.request.value, .string state,
        textJson operation.storageId, storageBeforeJson operation.storageStateBefore] :=
    .cons (within_kind _) (.cons (within_opaqueId _) (.cons (within_checksum _)
      (.cons (within_uint64 (fun _ range => range.2) _) (.cons (within_canonicalObject _)
      (.cons ((within_string _).mono (by omega)) (.cons (within_opaqueId _)
      (.cons (within_nullable StorageState.within (by decide) _) .nil)))))))
  unfold Operation.json
  cases operation.commit with
  | none => exact (within_record (prepared _ (by decide))).mono (by decide)
  | some commit =>
      have committed : List.Forall₂ Within [122, 500, maxCanonicalBytes, 150000]
          [uint64Json commit.committedStateRevision,
            nullableJson ExpectedStorage.json commit.expectedStorage, commit.result.value,
            commit.storageState.json] :=
        .cons (within_uint64 (fun _ range => range.2) _)
          (.cons (within_nullable ExpectedStorage.within (by decide) _)
          (.cons (within_canonicalObject _) (.cons commit.storageState.within .nil)))
      exact (within_record (List.rel_append (prepared (js "committed") (by decide)) committed)).mono
        (by decide)

/-- A bound on the payload of a frame. -/
def framePayloadBound : Nat := 2000000

theorem CheckpointFrame.within (frame : CheckpointFrame) : Within framePayloadBound frame.json := by
  cases frame with
  | start frame =>
      cases version : frame.contractVersion <;>
        exact (within_record (.cons (within_checksum _) (.cons (within_version _)
          (.cons (within_uint64 (fun _ range => range.2) _) (.cons (within_count (fun _ le => le) _)
          (.cons (within_nullable within_checksum (by decide) _)
          (.cons (within_count (fun _ range => range.2) _)
          (.cons (within_uint64 (fun _ range => range) _) (.cons (within_count (fun _ le => le) _)
          (.cons (within_string _) .nil)))))))))).mono (by rw [version]; decide)
  | operation frame =>
      refine (within_record (.cons (within_version _)
          (.cons (within_uint64 (fun _ range => range.2) _) (.cons frame.operation.within
          (.cons (within_nullable within_checksum (by decide) _)
          (.cons (within_count (fun _ range => range.2) _)
          (.cons (within_string _) .nil))))))).mono ?_
      cases frame.contractVersion <;> decide
  | storage frame =>
      exact (within_record (.cons (within_version _)
          (.cons (within_uint64 (fun _ range => range.2) _)
          (.cons (within_nullable within_checksum (by decide) _)
          (.cons (within_count (fun _ range => range.2) _)
          (.cons frame.storage.within (.cons (within_string _) .nil))))))).mono (by decide)
  | finish frame =>
      refine (within_record (.cons (within_version _)
          (.cons (within_uint64 (fun _ range => range.2) _) (.cons (within_count (fun _ le => le) _)
          (.cons (within_nullable within_checksum (by decide) _)
          (.cons (within_count (fun _ range => range.2) _) (.cons (within_checksum _)
          (.cons (within_uint64 (fun _ range => range) _) (.cons (within_count (fun _ le => le) _)
          (.cons (within_string _) .nil)))))))))).mono ?_
      cases frame.contractVersion <;> decide

theorem DeltaFrame.within (frame : DeltaFrame) : Within framePayloadBound frame.json := by
  have sequence (n : Nat) (range : 1 ≤ n ∧ n ≤ maxFrameCount) : n ≤ maxUint32 :=
    range.2.trans (by decide)
  cases frame with
  | prepared frame =>
      exact (within_record (.cons (within_version _) (.cons (within_kind _) (.cons (within_opaqueId _)
        (.cons (within_nullable within_checksum (by decide) _) (.cons (within_canonicalObject _)
        (.cons (within_count sequence _) (.cons (within_uint64 (fun _ range => range.2) _)
        (.cons (within_opaqueId _) (.cons (within_nullable StorageState.within (by decide) _)
        (.cons (within_string _) .nil))))))))))).mono (by decide)
  | committed frame =>
      exact (within_record (.cons (within_version _)
        (.cons (within_nullable ExpectedStorage.within (by decide) _) (.cons (within_opaqueId _)
        (.cons (within_nullable within_checksum (by decide) _)
        (.cons (within_nullable within_checksum (by decide) _) (.cons (within_canonicalObject _)
        (.cons (within_count sequence _) (.cons (within_uint64 (fun _ range => range.2) _)
        (.cons frame.storageState.within (.cons (within_string _) .nil))))))))))).mono (by decide)

section Encoding

variable {F : Type} [Frame F] {frame : F}

theorem framePayload_pos (frame : F) : 0 < (framePayload frame).length := by
  rw [List.length_pos_iff]
  intro empty
  -- a canonical text parses and the empty text does not
  have parsed := parseJson_canonicalString (Frame.json frame)
  rw [← decodeUtf8_canonicalString, ← framePayload, empty] at parsed
  cases parsed

theorem fits_of_within (h : Within framePayloadBound (Frame.json frame)) : Fits frame :=
  ⟨framePayload_pos frame, Nat.le_trans h (by decide)⟩

theorem encoding_length_le (h : Within framePayloadBound (Frame.json frame)) :
    (encoding frame).bytes.length ≤ 96 + framePayloadBound := by
  rw [encoding_length]
  exact Nat.add_le_add_left h 96

end Encoding

/-- Every delta frame is encoded. -/
theorem encodeCanonicalFrame_delta (frame : DeltaFrame) :
    encodeCanonicalFrame frame = some (encoding frame) :=
  encodeCanonicalFrame_eq_some_iff.mpr ⟨fits_of_within frame.within, rfl⟩

/-- Every checkpoint frame is encoded. -/
theorem encodeCanonicalFrame_checkpoint (frame : CheckpointFrame) :
    encodeCanonicalFrame frame = some (encoding frame) :=
  encodeCanonicalFrame_eq_some_iff.mpr ⟨fits_of_within frame.within, rfl⟩

end PortableCodex.ProviderState
