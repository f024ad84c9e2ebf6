import PortableCodex.Js.Base64
import PortableCodex.ProviderState.Storage

/-!
The records of the encrypted auth state store.

A `StoreRecord` holds its checks: the generation follows the base generation, the commit ID and the payload
are valid. It is written as canonical JSON, sealed under a key and put into an envelope of canonical JSON
again (`encryptRecord`); `decryptEnvelope` reads it back (`decryptEnvelope_encryptRecord`). The cipher is a
parameter of which only this is used: what it sealed it opens.
-/

namespace PortableCodex.AuthStore

open Js ProviderState

/-! ### Errors -/

inductive ErrorCode where
  | authStateIntegrityFailed
  | authStateIoFailed
  | authorityBindingMismatch
  | commitIdConflict
  | commitOutcomeUncertain
  | commitVerificationFailed
  | generationConflict
  | generationExhausted
  | invalidAuthState
  | invalidCommitId
  | invalidGeneration
  | invalidKeyId
  | invalidKeyMaterial
  | invalidKeyProvider
  | invalidLockProvider
  | invalidPayload
  | invalidRandomSource
  | invalidStoreDirectory
  | keyUnavailable
  | lockReleaseFailed
  | recoveryRequired
  | unsupportedAuthState
deriving DecidableEq

def ErrorCode.text : ErrorCode → JsString
  | .authStateIntegrityFailed => js "auth_state_integrity_failed"
  | .authStateIoFailed => js "auth_state_io_failed"
  | .authorityBindingMismatch => js "authority_binding_mismatch"
  | .commitIdConflict => js "commit_id_conflict"
  | .commitOutcomeUncertain => js "commit_outcome_uncertain"
  | .commitVerificationFailed => js "commit_verification_failed"
  | .generationConflict => js "generation_conflict"
  | .generationExhausted => js "generation_exhausted"
  | .invalidAuthState => js "invalid_auth_state"
  | .invalidCommitId => js "invalid_commit_id"
  | .invalidGeneration => js "invalid_generation"
  | .invalidKeyId => js "invalid_key_id"
  | .invalidKeyMaterial => js "invalid_key_material"
  | .invalidKeyProvider => js "invalid_key_provider"
  | .invalidLockProvider => js "invalid_lock_provider"
  | .invalidPayload => js "invalid_payload"
  | .invalidRandomSource => js "invalid_random_source"
  | .invalidStoreDirectory => js "invalid_store_directory"
  | .keyUnavailable => js "key_unavailable"
  | .lockReleaseFailed => js "lock_release_failed"
  | .recoveryRequired => js "recovery_required"
  | .unsupportedAuthState => js "unsupported_auth_state"

inductive CommitState where
  | notCommitted
  | committed
  | uncertain
deriving DecidableEq

/-- `AuthStateStoreError` -/
structure StoreError where
  code : ErrorCode
  message : String
  commitState : Option CommitState
  retryable : Bool
deriving DecidableEq

/-- An error without a commit state, as the checks throw it. -/
abbrev Refusal := { error : StoreError // error.commitState = none }

/-- `fail(code, message)` -/
def failure (code : ErrorCode) (message : String) : Refusal :=
  ⟨{ code, message, commitState := none, retryable := false }, rfl⟩

/-- `fail(code, message, { retryable: true })` -/
def retryable (code : ErrorCode) (message : String) : Refusal :=
  ⟨{ code, message, commitState := none, retryable := true }, rfl⟩

def ensure (condition : Prop) [Decidable condition] (refusal : Refusal) : Except Refusal Unit :=
  if condition then .ok () else .error refusal

def found {α : Type} (value : Option α) (refusal : Refusal) : Except Refusal α :=
  match value with
  | some a => .ok a
  | none => .error refusal

/-! ### Canonical JSON -/

/-- `canonicalJson` of the object with these fields. -/
def canonicalJson (fields : List JsString) (values : List JsValue) (newline : Bool) : JsString :=
  stringify (record fields values) ++ if newline then [10] else []

def parseCanonicalJson (raw : JsString) (fields : List JsString) (code : ErrorCode) (label : String)
    (newline : Bool) : Except Refusal (List JsValue) := do
  let value ← found (parseJson raw) (failure code (label ++ " is not valid JSON"))
  let values ← found (exactDataFields value fields) (failure code (label ++ " has an invalid shape"))
  ensure (canonicalJson fields values newline = raw) (failure code (label ++ " is not canonical JSON"))
  .ok values

/-! ### Values -/

def maxGeneration : Nat := 18446744073709551615

def maxPayloadBytes : Nat := 1024 * 1024

def maxEnvelopeBytes : Nat := 2 * 1024 * 1024

/-- A generation, at most `maxGeneration`. -/
abbrev Generation := Uint64

def parseGeneration (value : JsValue) (allowZero : Bool) : Except Refusal Generation := do
  let n ← found (uint64Text value) (failure .invalidGeneration "auth state generation is not canonical")
  if h : n < 2 ^ 64 then
    ensure (allowZero = true ∨ 0 < n) (failure .invalidGeneration "auth state generation is out of range")
    .ok ⟨n, h⟩
  else .error (failure .invalidGeneration "auth state generation is out of range")

def validateOpaqueId (value : JsValue) (code : ErrorCode) (label : String) : Except Refusal OpaqueId :=
  found (canonicalOpaqueId value) (failure code (label ++ " is invalid"))

def IsPayload (s : JsString) : Prop := byteLength s ≤ maxPayloadBytes ∧ decodeUtf8 (encodeUtf8 s) = s

instance isPayloadDecidable : DecidablePred IsPayload := fun _ => inferInstanceAs (Decidable (_ ∧ _))

abbrev Payload := { s : JsString // IsPayload s }

def validatePayload : JsValue → Except Refusal Payload
  | .string s =>
      if h : IsPayload s then .ok ⟨s, h⟩
      else .error (failure .invalidPayload "auth state payload is not bounded exact UTF-8")
  | _ => .error (failure .invalidPayload "auth state payload must be a string")

/-- `value === n` -/
def isNumber (n : Nat) (value : JsValue) : Prop := safeInteger value = some n

instance isNumberDecidable (n : Nat) (value : JsValue) : Decidable (isNumber n value) :=
  inferInstanceAs (Decidable (_ = _))

/-! ### Records -/

inductive Operation where
  | compareAndSwap
  | rotateEncryption
deriving DecidableEq

def Operation.text : Operation → JsString
  | .compareAndSwap => js "compare-and-swap"
  | .rotateEncryption => js "rotate-encryption"

def readOperation : JsValue → Option Operation
  | .string s =>
      if s = js "compare-and-swap" then some .compareAndSwap
      else if s = js "rotate-encryption" then some .rotateEncryption
      else none
  | _ => none

structure StoreRecord where
  generation : Generation
  baseGeneration : Generation
  commitId : OpaqueId
  operation : Operation
  payload : Payload
  succeeds : baseGeneration.val + 1 = generation.val
deriving DecidableEq

def recordVersion : Nat := 1

def recordFields : List JsString :=
  [js "recordVersion", js "generation", js "baseGeneration", js "commitId", js "operation", js "payload"]

def StoreRecord.values (r : StoreRecord) : List JsValue :=
  [.number (ofNat recordVersion), uint64Json r.generation, uint64Json r.baseGeneration, textJson r.commitId,
    .string r.operation.text, textJson r.payload]

/-- The record in the plaintext of an envelope. -/
def readRecord : List JsValue → Except Refusal StoreRecord
  | [version, generationValue, baseValue, commitValue, operationValue, payloadValue] => do
      ensure (isNumber recordVersion version)
        (failure .unsupportedAuthState "auth state record format is unsupported")
      let generation ← parseGeneration generationValue false
      let baseGeneration ← parseGeneration baseValue true
      if succeeds : baseGeneration.val + 1 = generation.val then
        let commitId ← validateOpaqueId commitValue .invalidAuthState "commit ID"
        let operation ← found (readOperation operationValue)
          (failure .invalidAuthState "auth state operation is invalid")
        let payload ← validatePayload payloadValue
        .ok { generation, baseGeneration, commitId, operation, payload, succeeds }
      else .error (failure .invalidGeneration "auth state base generation is inconsistent")
  | _ => .error (failure .invalidAuthState "auth state record has an invalid shape")

/-! ### Envelopes -/

/-- So many bytes. -/
abbrev Block (n : Nat) := { bytes : Bytes // bytes.length = n }

/-- An authenticated cipher. -/
structure Cipher (Key : Type) where
  /-- The ciphertext and the tag, from the key, the nonce, the associated data and the plaintext. -/
  encrypt : Key → Block 12 → Bytes → Bytes → Bytes × Block 16
  decrypt : Key → Block 12 → Bytes → Bytes → Block 16 → Option Bytes
  decrypt_encrypt : ∀ key nonce aad plaintext,
    decrypt key nonce aad (encrypt key nonce aad plaintext).1 (encrypt key nonce aad plaintext).2 = some plaintext
  ciphertext_length : ∀ key nonce aad plaintext, (encrypt key nonce aad plaintext).1.length = plaintext.length

structure Envelope where
  keyId : OpaqueId
  nonce : Block 12
  ciphertext : Bytes
  tag : Block 16

def formatVersion : Nat := 1

def headerFields : List JsString := [js "formatVersion", js "algorithm", js "authorityId", js "keyId"]

def envelopeFields : List JsString := headerFields ++ [js "nonce", js "ciphertext", js "tag"]

def headerValues (authorityId keyId : OpaqueId) : List JsValue :=
  [.number (ofNat formatVersion), .string (js "aes-256-gcm"), textJson authorityId, textJson keyId]

def Envelope.values (authorityId : OpaqueId) (e : Envelope) : List JsValue :=
  headerValues authorityId e.keyId ++
    [.string (base64Url e.nonce.val), .string (base64Url e.ciphertext), .string (base64Url e.tag.val)]

def Envelope.text (authorityId : OpaqueId) (e : Envelope) : JsString :=
  canonicalJson envelopeFields (e.values authorityId) true

/-- The associated data of an envelope. -/
def aad (authorityId keyId : OpaqueId) : Bytes :=
  encodeUtf8 (canonicalJson headerFields (headerValues authorityId keyId) false)

/-- Bytes behind a canonical `base64url` text. -/
def base64Bytes : JsValue → Option Bytes
  | .string s =>
      if s ≠ [] ∧ (∀ u ∈ s, isBase64Unit u = true) ∧ base64Url (fromBase64Url s) = s then some (fromBase64Url s)
      else none
  | _ => none

def decodeBase64Url (value : JsValue) (expectedLength : Nat) (label : String) :
    Except Refusal (Block expectedLength) := do
  let decoded ← found (base64Bytes value) (failure .invalidAuthState (label ++ " is invalid"))
  if h : decoded.length = expectedLength then .ok ⟨decoded, h⟩
  else .error (failure .invalidAuthState (label ++ " is invalid"))

/-- `value === text` -/
def isString (text : JsString) : JsValue → Bool
  | .string s => decide (s = text)
  | _ => false

/-- `#decryptEnvelope` until it asks for the key. -/
def readEnvelope (authorityId : OpaqueId) (raw : JsString) : Except Refusal Envelope := do
  match ← parseCanonicalJson raw envelopeFields .invalidAuthState "auth state envelope" true with
  | [version, algorithm, authority, keyValue, nonceValue, ciphertextValue, tagValue] =>
      ensure (isNumber formatVersion version ∧ isString (js "aes-256-gcm") algorithm = true)
        (failure .unsupportedAuthState "auth state format is unsupported")
      let authority ← validateOpaqueId authority .invalidAuthState "authority ID"
      ensure (authority = authorityId)
        (failure .authorityBindingMismatch "auth state belongs to a different authority")
      let keyId ← validateOpaqueId keyValue .invalidAuthState "key ID"
      let nonce ← decodeBase64Url nonceValue 12 "auth state nonce"
      let tag ← decodeBase64Url tagValue 16 "auth state tag"
      let ciphertext ← found (base64Bytes ciphertextValue)
        (failure .invalidAuthState "auth state ciphertext is invalid")
      ensure (0 < ciphertext.length) (failure .invalidAuthState "auth state ciphertext is invalid")
      .ok { keyId, nonce, ciphertext, tag }
  | _ => .error (failure .invalidAuthState "auth state envelope has an invalid shape")

section Sealing

variable {Key : Type} (cipher : Cipher Key) (authorityId : OpaqueId)

/-- The rest of `#decryptEnvelope`. -/
def openEnvelope (envelope : Envelope) (key : Key) : Except Refusal StoreRecord := do
  let plaintext ← found
    (cipher.decrypt key envelope.nonce (aad authorityId envelope.keyId) envelope.ciphertext envelope.tag)
    (failure .authStateIntegrityFailed "auth state authentication failed")
  ensure (encodeUtf8 (decodeUtf8 plaintext) = plaintext)
    (failure .invalidAuthState "auth state plaintext is not exact UTF-8")
  let values ← parseCanonicalJson (decodeUtf8 plaintext) recordFields .invalidAuthState "auth state record" false
  readRecord values

def recordText (r : StoreRecord) : JsString := canonicalJson recordFields r.values false

def sealRecord (keyId : OpaqueId) (key : Key) (nonce : Block 12) (r : StoreRecord) : Envelope :=
  let (ciphertext, tag) := cipher.encrypt key nonce (aad authorityId keyId) (encodeUtf8 (recordText r))
  { keyId, nonce, ciphertext, tag }

/-- `#encryptRecord` after it has the key and the nonce. -/
def encryptRecord (keyId : OpaqueId) (key : Key) (nonce : Block 12) (r : StoreRecord) :
    Except Refusal JsString := do
  let raw := (sealRecord cipher authorityId keyId key nonce r).text authorityId
  ensure (byteLength raw ≤ maxEnvelopeBytes)
    (failure .invalidPayload "auth state payload produces an oversized encrypted envelope")
  .ok raw

/-- `#decryptEnvelope` where every key ID names its key. -/
def decryptEnvelope (keys : OpaqueId → Key) (raw : JsString) : Except Refusal (StoreRecord × OpaqueId) := do
  let envelope ← readEnvelope authorityId raw
  let r ← openEnvelope cipher authorityId envelope (keys envelope.keyId)
  .ok (r, envelope.keyId)

end Sealing

/-! ### Reading back -/

/-- A value that comes back from its text as it is. -/
def Settled (v : JsValue) : Prop := settle v = v

theorem settled_string (s : JsString) : Settled (.string s) := rfl

theorem settled_ofNat {n : Nat} (h : n < 2 ^ 53) : Settled (.number (ofNat n)) := by
  have reads := Form.of_ofNat .parsed h
  rwa [Form.of, reparse_number] at reads

theorem exactDataFields_perm {ms : List (JsString × JsValue)} {keys : List JsString} {values : List JsValue}
    (nodup : keys.Nodup) (length : values.length = keys.length) (perm : ms.Perm (keys.zip values)) :
    exactDataFields (.object ms) keys = some values := by
  have names : (keys.zip values).map Prod.fst = keys := List.map_fst_zip length.ge
  have keysPerm : (ms.map Prod.fst).Perm keys := names ▸ perm.map Prod.fst
  have distinct : (ms.map Prod.fst).Nodup := keysPerm.nodup_iff.mpr nodup
  have found : ∀ m ∈ keys.zip values, getMember ms m.1 = some m.2 := fun m inside =>
    (getMember_eq_some_iff distinct).mpr (perm.mem_iff.mpr inside)
  have fields := mapM_getMember found
  rw [names, List.map_snd_zip length.le] at fields
  simp only [exactDataFields, exactDataObject, inspectPlainObject, if_pos distinct, Option.bind_eq_bind,
    Option.bind_some]
  rw [ensure_pos ⟨keysPerm.length_eq.le, fun key member => keysPerm.mem_iff.mp member,
    fun key member => keysPerm.mem_iff.mpr member⟩]
  exact fields

theorem settleMembers_zip {keys : List JsString} {values : List JsValue} (settled : ∀ v ∈ values, Settled v) :
    settleMembers (keys.zip values) = keys.zip values := by
  rw [settleMembers_eq_mapValues, mapValues]
  refine (List.map_congr_left fun m inside => ?_).trans (List.map_id _)
  have same : settle m.2 = m.2 := settled m.2 (List.of_mem_zip inside).2
  rw [same]
  rfl

/-- The object of distinct fields with settled values is read from its canonical text. -/
theorem parseCanonicalJson_canonicalJson {field : JsString} {fields : List JsString} {value : JsValue}
    {values : List JsValue} (nodup : (field :: fields).Nodup) (length : values.length = fields.length)
    (settled : ∀ v ∈ value :: values, Settled v) (code : ErrorCode) (label : String) (newline : Bool) :
    parseCanonicalJson (canonicalJson (field :: fields) (value :: values) newline) (field :: fields) code label
      newline = .ok (value :: values) := by
  have parsed : parseJson (canonicalJson (field :: fields) (value :: values) newline) =
      some (settle (record (field :: fields) (value :: values))) := by
    cases newline with
    | false => exact (congrArg parseJson (List.append_nil _)).trans (parseJson_stringify _)
    | true => exact parseJson_object_newline (field, value) (fields.zip values)
  have members : settle (record (field :: fields) (value :: values)) =
      .object (ofEntries ((field :: fields).zip (value :: values))) := by
    rw [record, settle, settleMembers_zip settled]
  have sameLength : (value :: values).length = (field :: fields).length := congrArg (· + 1) length
  have names := List.map_fst_zip sameLength.ge
  have distinct : (((field :: fields).zip (value :: values)).map Prod.fst).Nodup := by rwa [names]
  have read := exactDataFields_perm nodup sameLength (ofEntries_perm distinct)
  rw [parseCanonicalJson, parsed, members]
  show (found (exactDataFields (.object (ofEntries _)) _) _ >>= _) = _
  rw [read]
  show (ensure _ _ >>= fun _ => _) = _
  rw [ensure, if_pos rfl]
  rfl

theorem ensure_pos {p : Prop} [Decidable p] {refusal : Refusal} (h : p) : ensure p refusal = .ok () := if_pos h

theorem parseGeneration_json (g : Generation) {allowZero : Bool} (h : allowZero = true ∨ 0 < g.val) :
    parseGeneration (uint64Json g) allowZero = .ok g := by
  rw [parseGeneration, uint64Json, uint64Text_decimal g.property]
  show (if _ : g.val < 2 ^ 64 then _ else _) = _
  rw [dif_pos g.property, ensure_pos h]
  rfl

theorem validateOpaqueId_json (id : OpaqueId) (code : ErrorCode) (label : String) :
    validateOpaqueId (textJson id) code label = .ok id := by
  have read := canonicalOpaqueId_reads .held id
  rw [Form.of] at read
  rw [validateOpaqueId, read]
  rfl

theorem validatePayload_json (payload : Payload) : validatePayload (textJson payload) = .ok payload :=
  dif_pos payload.property

theorem readOperation_text (operation : Operation) : readOperation (.string operation.text) = some operation := by
  cases operation <;> rfl

theorem isNumber_ofNat {n : Nat} (h : n < 2 ^ 53) : isNumber n (.number (ofNat n)) := safeNat?_ofNat h

theorem readRecord_values (r : StoreRecord) : readRecord r.values = .ok r := by
  obtain ⟨generation, baseGeneration, commitId, operation, payload, succeeds⟩ := r
  have positive : 0 < generation.val := succeeds ▸ Nat.succ_pos _
  rw [StoreRecord.values, readRecord, ensure_pos (isNumber_ofNat (by decide)),
    parseGeneration_json generation (.inr positive), parseGeneration_json baseGeneration (.inl rfl)]
  show (if _ : baseGeneration.val + 1 = generation.val then _ else _) = _
  rw [dif_pos succeeds, validateOpaqueId_json, readOperation_text, validatePayload_json]
  rfl

theorem StoreRecord.values_settled (r : StoreRecord) : ∀ v ∈ r.values, Settled v := by
  intro v member
  simp only [StoreRecord.values, List.mem_cons, List.not_mem_nil, or_false] at member
  rcases member with rfl | rfl | rfl | rfl | rfl | rfl
  · exact settled_ofNat (by decide)
  all_goals exact settled_string _

theorem Envelope.values_settled (authorityId : OpaqueId) (e : Envelope) :
    ∀ v ∈ e.values authorityId, Settled v := by
  intro v member
  simp only [Envelope.values, headerValues, List.cons_append, List.nil_append, List.mem_cons, List.not_mem_nil,
    or_false] at member
  rcases member with rfl | rfl | rfl | rfl | rfl | rfl | rfl
  · exact settled_ofNat (by decide)
  all_goals exact settled_string _

theorem base64Bytes_base64Url {bytes : Bytes} (h : bytes ≠ []) :
    base64Bytes (.string (base64Url bytes)) = some bytes := by
  have reads := fromBase64Url_base64Url bytes
  rw [base64Bytes, reads, if_pos ⟨base64Url_ne_nil h, base64Url_all bytes, rfl⟩]

theorem decodeBase64Url_base64Url {n : Nat} (block : Block (n + 1)) (label : String) :
    decodeBase64Url (.string (base64Url block.val)) (n + 1) label = .ok block := by
  have nonempty : block.val ≠ [] := List.ne_nil_of_length_eq_add_one block.property
  rw [decodeBase64Url, base64Bytes_base64Url nonempty]
  exact dif_pos block.property

theorem readEnvelope_text (authorityId : OpaqueId) (e : Envelope) (nonempty : 0 < e.ciphertext.length) :
    readEnvelope authorityId (e.text authorityId) = .ok e := by
  have parsed : parseCanonicalJson (e.text authorityId) envelopeFields .invalidAuthState "auth state envelope"
      true = .ok (e.values authorityId) :=
    parseCanonicalJson_canonicalJson (by decide) rfl (e.values_settled authorityId) _ _ true
  have ciphertextNonempty : e.ciphertext ≠ [] := List.ne_nil_of_length_pos nonempty
  rw [readEnvelope, parsed]
  show (ensure _ _ >>= fun _ => _) = _
  rw [ensure_pos ⟨isNumber_ofNat (by decide), rfl⟩, validateOpaqueId_json, validateOpaqueId_json,
    decodeBase64Url_base64Url, decodeBase64Url_base64Url, base64Bytes_base64Url ciphertextNonempty]
  show (ensure _ _ >>= fun _ => ensure _ _ >>= fun _ => _) = _
  rw [ensure_pos rfl, ensure_pos nonempty]
  rfl

section

variable {Key : Type} (cipher : Cipher Key) (authorityId : OpaqueId)

theorem recordText_lossless (r : StoreRecord) : decodeUtf8 (encodeUtf8 (recordText r)) = recordText r := by
  refine (lossless_iff_wellFormed _).mpr ?_
  rw [recordText, canonicalJson]
  exact (List.append_nil (stringify _)).symm ▸ wellFormed_stringify _

theorem openEnvelope_sealRecord (keyId : OpaqueId) (key : Key) (nonce : Block 12) (r : StoreRecord) :
    openEnvelope cipher authorityId (sealRecord cipher authorityId keyId key nonce r) key = .ok r := by
  have parsed : parseCanonicalJson (recordText r) recordFields .invalidAuthState "auth state record" false =
      .ok r.values :=
    parseCanonicalJson_canonicalJson (by decide) rfl r.values_settled _ _ false
  rw [openEnvelope, sealRecord, cipher.decrypt_encrypt]
  show (ensure _ _ >>= fun _ => parseCanonicalJson _ _ _ _ _ >>= readRecord) = _
  rw [recordText_lossless, ensure_pos rfl]
  show (parseCanonicalJson _ _ _ _ _ >>= readRecord) = _
  rw [parsed]
  exact readRecord_values r

theorem sealRecord_ciphertext (keyId : OpaqueId) (key : Key) (nonce : Block 12) (r : StoreRecord) :
    0 < (sealRecord cipher authorityId keyId key nonce r).ciphertext.length := by
  rw [sealRecord, cipher.ciphertext_length]
  have text : recordText r = 123 :: (recordText r).tail := rfl
  rw [text, encodeUtf8_cons (by decide), List.length_append]
  exact Nat.add_pos_left (by decide) _

theorem decryptEnvelope_eq_ok {keys : OpaqueId → Key} {raw : JsString} {read : StoreRecord × OpaqueId} :
    decryptEnvelope cipher authorityId keys raw = .ok read ↔ ∃ envelope, readEnvelope authorityId raw = .ok envelope ∧
      openEnvelope cipher authorityId envelope (keys envelope.keyId) = .ok read.1 ∧ envelope.keyId = read.2 := by
  unfold decryptEnvelope
  cases readEnvelope authorityId raw with
  | error refusal => exact ⟨nofun, fun ⟨_, same, _⟩ => nomatch same⟩
  | ok envelope =>
      cases opened : openEnvelope cipher authorityId envelope (keys envelope.keyId) with
      | error refusal =>
          constructor
          · intro same
            change (openEnvelope cipher authorityId envelope (keys envelope.keyId) >>= _) = _ at same
            rw [opened] at same
            cases same
          · rintro ⟨_, ⟨⟩, same, -⟩
            rw [opened] at same
            cases same
      | ok r =>
          constructor
          · intro same
            change (openEnvelope cipher authorityId envelope (keys envelope.keyId) >>= _) = _ at same
            rw [opened] at same
            obtain rfl := Except.ok.inj same
            exact ⟨envelope, rfl, opened, rfl⟩
          · rintro ⟨_, ⟨⟩, same, named⟩
            rw [opened] at same
            obtain rfl := Except.ok.inj same
            change (openEnvelope cipher authorityId envelope (keys envelope.keyId) >>= _) = _
            rw [opened]
            exact congrArg (fun keyId => Except.ok (read.1, keyId)) named

/-- What was encrypted under the key its ID names is decrypted again, from the bytes of the file as well. -/
theorem decryptEnvelope_encryptRecord (keys : OpaqueId → Key) {keyId : OpaqueId} {nonce : Block 12}
    {r : StoreRecord} {raw : JsString}
    (h : encryptRecord cipher authorityId keyId (keys keyId) nonce r = .ok raw) :
    decryptEnvelope cipher authorityId keys (decodeUtf8 (encodeUtf8 raw)) = .ok (r, keyId) := by
  have text : raw = (sealRecord cipher authorityId keyId (keys keyId) nonce r).text authorityId := by
    simp only [encryptRecord, ensure] at h
    split at h
    · exact (Except.ok.inj h).symm
    · cases h
  have lossless : decodeUtf8 (encodeUtf8 raw) = raw := by
    refine (lossless_iff_wellFormed _).mpr ?_
    rw [text, Envelope.text, canonicalJson]
    exact wellFormed_append (wellFormed_stringify _) (wellFormed_of_ascii (by decide))
  rw [lossless, text, decryptEnvelope, readEnvelope_text authorityId _ (sealRecord_ciphertext cipher authorityId ..)]
  show (openEnvelope cipher authorityId _ (keys keyId) >>= fun r => Except.ok (r, keyId)) = _
  rw [openEnvelope_sealRecord]
  rfl

end

end PortableCodex.AuthStore
