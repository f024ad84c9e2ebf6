import PortableCodex.AuthBroker.Credential
import PortableCodex.AuthStore.Record
import PortableCodex.ProviderState.CodecLaws

/-!
The payloads that the broker keeps in the store.

A payload is a credential that is ready, or a fence that blocks it: the digests of the credential that a
refresh has begun with. Its text is the JSON of its fields in a fixed order, which is read back as the same
payload (`parse_serialize`) and is the only text that is (`serialize_of_parse`).
-/

namespace PortableCodex.AuthBroker

open Js ProviderState

/-! ### Reasons -/

/-- `SAFE_REASONS` -/
inductive Reason where
  | accessTokenUnchanged
  | accountIdentityChanged
  | adapterPostDispatchUncertain
  | invalidGrant
  | invalidRefreshCandidate
  | refreshTokenReused
  | refreshInProgress
  | remoteReauthRequired
  | tokenTtlInsufficient
  | userIdentityChanged
deriving DecidableEq

namespace Reason

def all : List Reason :=
  [.accessTokenUnchanged, .accountIdentityChanged, .adapterPostDispatchUncertain, .invalidGrant,
    .invalidRefreshCandidate, .refreshTokenReused, .refreshInProgress, .remoteReauthRequired,
    .tokenTtlInsufficient, .userIdentityChanged]

def text : Reason → JsString
  | .accessTokenUnchanged => js "access_token_unchanged"
  | .accountIdentityChanged => js "account_identity_changed"
  | .adapterPostDispatchUncertain => js "adapter_post_dispatch_uncertain"
  | .invalidGrant => js "invalid_grant"
  | .invalidRefreshCandidate => js "invalid_refresh_candidate"
  | .refreshTokenReused => js "refresh_token_reused"
  | .refreshInProgress => js "refresh_in_progress"
  | .remoteReauthRequired => js "remote_reauth_required"
  | .tokenTtlInsufficient => js "token_ttl_insufficient"
  | .userIdentityChanged => js "user_identity_changed"

def ofText (text : JsString) : Option Reason := all.find? fun reason => reason.text = text

theorem ofText_text (reason : Reason) : ofText reason.text = some reason := by
  cases reason <;> decide

end Reason

/-- `safeReason` -/
def safeReason (value : Option JsValue) (fallback : Reason) : Reason :=
  ((asString value).bind Reason.ofText).getD fallback

inductive BlockedStatus where
  | reauthRequired
  | recoveryRequired
deriving DecidableEq

def BlockedStatus.text : BlockedStatus → JsString
  | .reauthRequired => js "reauth-required"
  | .recoveryRequired => js "recovery-required"

def BlockedStatus.ofText (text : JsString) : Option BlockedStatus :=
  [.reauthRequired, .recoveryRequired].find? fun status => status.text = text

/-! ### Digests -/

def utf16le (s : JsString) : Bytes := s.flatMap fun u => [byte (u.toNat % 256), byte (u.toNat / 256)]

/-- `IDENTITY_DIGEST_DOMAIN` -/
def identityDigestDomain : JsString := js "portable-codex-runtime/auth-broker/identity/v1\x00"

def identityDigestEncoding : JsString := js "sha256-domain-separated-utf16le-v1"

def accessTokenHash (accessToken : JsString) : Checksum := hexChecksum (encodeUtf8 accessToken)

def identityHash (identity : JsString) : Checksum := hexChecksum (encodeUtf8 identityDigestDomain ++ utf16le identity)

def refreshTokenHash (c : Credential) : Checksum := hexChecksum (encodeUtf8 c.refreshTokenValue)

/-! ### Payloads -/

/-- `recoveryFence` -/
structure Fence where
  reservationId : OpaqueId
  sourceAccountIdHash : Checksum
  sourceAccessTokenHash : Checksum
  sourceRefreshTokenHash : Checksum
  sourceUserIdHash : Checksum
deriving DecidableEq

inductive Payload where
  | ready (credential : Credential)
  | blocked (status : BlockedStatus) (reason : Reason) (fence : Fence)
deriving DecidableEq

def Credential.fence (c : Credential) (reservationId : OpaqueId) : Fence where
  reservationId
  sourceAccountIdHash := identityHash c.val.accountId
  sourceAccessTokenHash := accessTokenHash c.val.accessToken
  sourceRefreshTokenHash := refreshTokenHash c
  sourceUserIdHash := identityHash c.val.userId

/-- `refreshReservationPayload` with an ID that is opaque. -/
def refreshReservationPayload (c : Credential) (reservationId : OpaqueId) : Payload :=
  .blocked .recoveryRequired .refreshInProgress (c.fence reservationId)

def BlockedStatus.fallback : BlockedStatus → Reason
  | .reauthRequired => .remoteReauthRequired
  | .recoveryRequired => .adapterPostDispatchUncertain

def blockedPayload (status : BlockedStatus) (reason : Reason) (fence : Fence) : Payload :=
  .blocked status (if reason = .refreshInProgress then status.fallback else reason) fence

/-! ### Texts -/

def schemaVersion : Nat := 1

def readyKeys : List JsString := js "schemaVersion" :: js "status" :: readyCredentialKeys

def blockedKeys : List JsString :=
  [js "schemaVersion", js "status", js "reason", js "identityDigestEncoding", js "reservationId",
    js "sourceAccountIdHash", js "sourceAccessTokenHash", js "sourceRefreshTokenHash", js "sourceUserIdHash"]

def Fence.values (fence : Fence) : List JsValue :=
  [.string identityDigestEncoding, textJson fence.reservationId, textJson fence.sourceAccountIdHash,
    textJson fence.sourceAccessTokenHash, textJson fence.sourceRefreshTokenHash, textJson fence.sourceUserIdHash]

def Payload.keys : Payload → List JsString
  | .ready _ => readyKeys
  | .blocked _ _ _ => blockedKeys

def Payload.values : Payload → List JsValue
  | .ready c => .number (ofNat schemaVersion) :: .string (js "ready") :: c.val.values
  | .blocked status reason fence =>
      .number (ofNat schemaVersion) :: .string status.text :: .string reason.text :: fence.values

def recoveryFence : List JsValue → Option Fence
  | [encoding, reservationId, account, accessToken, refreshToken, user] => do
      ensure (equalsString identityDigestEncoding encoding)
      let reservationId ← canonicalOpaqueId reservationId
      let sourceAccountIdHash ← sha256Text account
      let sourceAccessTokenHash ← sha256Text accessToken
      let sourceRefreshTokenHash ← sha256Text refreshToken
      let sourceUserIdHash ← sha256Text user
      some { reservationId, sourceAccountIdHash, sourceAccessTokenHash, sourceRefreshTokenHash, sourceUserIdHash }
  | _ => none

def readyPayloadOf : List JsValue → Option Payload
  | _ :: _ :: values => (readyFields values).map .ready
  | _ => none

def blockedPayloadOf (status : BlockedStatus) : List JsValue → Option Payload
  | _ :: _ :: reason :: values => do
      let reason ← (asString (some reason)).bind Reason.ofText
      let fence ← recoveryFence values
      some (.blocked status reason fence)
  | _ => none

def validateStoredPayload (payload : JsValue) : Option Payload := do
  let members ← inspectPlainObject payload
  ensure ((getMember members (js "schemaVersion")).bind safeInteger = some schemaVersion)
  let status ← asString (getMember members (js "status"))
  if status = js "ready" then readyPayloadOf (← exactDataFields payload readyKeys)
  else do
    let status ← BlockedStatus.ofText status
    blockedPayloadOf status (← exactDataFields payload blockedKeys)

/-- `serializeStoredPayload` of a payload, which is valid. -/
def serialize (payload : Payload) : JsString := stringify (record payload.keys payload.values)

def parseStoredPayload (rawPayload : JsString) : Option Payload := do
  let payload ← validateStoredPayload (← parseJson rawPayload)
  ensure (serialize payload = rawPayload)
  some payload

/-! ### Reading back -/

theorem recoveryFence_values (fence : Fence) : recoveryFence fence.values = some fence := by
  have id := canonicalOpaqueId_reads .held fence.reservationId
  have digests := sha256Text_reads .held
  simp only [Form.of] at id digests
  simp only [Fence.values, recoveryFence, equalsString, decide_true, ensure_pos, id, digests, Option.bind_eq_bind,
    Option.bind_some]

theorem Payload.keys_nodup (payload : Payload) : payload.keys.Nodup := by
  have ready : readyKeys.Nodup := by decide
  have blocked : blockedKeys.Nodup := by decide
  cases payload with
  | ready c => exact ready
  | blocked status reason fence => exact blocked

theorem Payload.values_length (payload : Payload) : payload.values.length = payload.keys.length := by
  cases payload <;> rfl

theorem Payload.values_settled (payload : Payload) : ∀ v ∈ payload.values, AuthStore.Settled v := by
  intro v member
  rcases payload with ⟨⟨c, valid⟩⟩ | ⟨status, reason, fence⟩
  · simp only [Payload.values, CredentialFields.values, List.mem_cons, List.not_mem_nil, or_false] at member
    have plan : AuthStore.Settled (nullableJson .string c.planType) := by cases c.planType <;> rfl
    rcases member with rfl | rfl | rfl | rfl | rfl | rfl | rfl | rfl
    · exact AuthStore.settled_ofNat (by decide)
    · exact AuthStore.settled_string _
    · exact AuthStore.settled_string _
    · exact AuthStore.settled_string _
    · exact AuthStore.settled_string _
    · exact AuthStore.settled_string _
    · exact plan
    · exact AuthStore.settled_string _
  · simp only [Payload.values, Fence.values, List.mem_cons, List.not_mem_nil, or_false] at member
    rcases member with rfl | rfl | rfl | rfl | rfl | rfl | rfl | rfl | rfl
    · exact AuthStore.settled_ofNat (by decide)
    all_goals exact AuthStore.settled_string _

/-- What the text of a payload parses to: an object with its fields. -/
theorem parseJson_serialize (payload : Payload) : ∃ members, parseJson (serialize payload) = some (.object members) ∧
    members.Perm (payload.keys.zip payload.values) := by
  have names := List.map_fst_zip payload.values_length.ge
  refine ⟨ofEntries (payload.keys.zip payload.values), ?_, ofEntries_perm ?_⟩
  · rw [serialize, parseJson_stringify, record, settle, AuthStore.settleMembers_zip payload.values_settled]
  · rw [names]
    exact payload.keys_nodup

theorem validateStoredPayload_values {payload : Payload} {members : List (JsString × JsValue)}
    (perm : members.Perm (payload.keys.zip payload.values)) :
    validateStoredPayload (.object members) = some payload := by
  have names := List.map_fst_zip payload.values_length.ge
  have fields := AuthStore.exactDataFields_perm payload.keys_nodup payload.values_length perm
  have distinct : (members.map Prod.fst).Nodup := by
    rw [(perm.map Prod.fst).nodup_iff, names]
    exact payload.keys_nodup
  have get (m : JsString × JsValue) (inside : m ∈ payload.keys.zip payload.values) :
      getMember members m.1 = some m.2 := (getMember_eq_some_iff distinct).mpr (perm.mem_iff.mpr inside)
  have one : safeInteger (.number (ofNat schemaVersion)) = some schemaVersion := safeNat?_ofNat (by decide)
  rcases payload with c | ⟨status, reason, fence⟩
  · have version := get (js "schemaVersion", .number (ofNat schemaVersion)) List.mem_cons_self
    have status := get (js "status", .string (js "ready")) (List.mem_cons_of_mem _ List.mem_cons_self)
    simp only [validateStoredPayload, inspectPlainObject, if_pos distinct, version, status, Option.bind_eq_bind,
      Option.bind_some, one, ensure_pos, asString, if_true]
    change (exactDataFields _ readyKeys).bind readyPayloadOf = _
    rw [show exactDataFields (.object members) readyKeys = some _ from fields]
    exact congrArg (Option.map Payload.ready) (readyFields_values c)
  · have version := get (js "schemaVersion", .number (ofNat schemaVersion)) List.mem_cons_self
    have named := get (js "status", .string status.text) (List.mem_cons_of_mem _ List.mem_cons_self)
    have other : status.text ≠ js "ready" := by cases status <;> decide
    have read : BlockedStatus.ofText status.text = some status := by cases status <;> decide
    simp only [validateStoredPayload, inspectPlainObject, if_pos distinct, version, named, Option.bind_eq_bind,
      Option.bind_some, one, ensure_pos, asString, if_neg other, read]
    rw [show exactDataFields (.object members) blockedKeys = some _ from fields]
    simp only [Payload.values, Option.bind_some, blockedPayloadOf, asString, Reason.ofText_text,
      Option.bind_eq_bind, recoveryFence_values]

/-- What the broker writes it reads back. -/
theorem parse_serialize (payload : Payload) : parseStoredPayload (serialize payload) = some payload := by
  obtain ⟨members, parsed, perm⟩ := parseJson_serialize payload
  rw [parseStoredPayload, parsed]
  show (validateStoredPayload (.object members) >>= _) = _
  rw [validateStoredPayload_values perm]
  exact congrArg (Option.bind · fun _ => some payload) (ensure_pos rfl)

theorem serialize_of_parse {raw : JsString} {payload : Payload} (h : parseStoredPayload raw = some payload) :
    serialize payload = raw := by
  unfold parseStoredPayload at h
  simp only [Option.bind_eq_bind, Option.bind_eq_some_iff, ensure_eq_some_iff] at h
  obtain ⟨value, -, read, -, _, same, last⟩ := h
  rw [← Option.some.inj last]
  exact same

theorem serialize_injective : Function.Injective serialize := by
  intro payload other same
  have read := parse_serialize payload
  rw [same, parse_serialize] at read
  exact (Option.some.inj read).symm

/-- The stored texts that the broker accepts are the texts of its payloads. -/
theorem parseStoredPayload_eq_some_iff {raw : JsString} {payload : Payload} :
    parseStoredPayload raw = some payload ↔ raw = serialize payload := by
  constructor
  · intro read
    exact (serialize_of_parse read).symm
  · rintro rfl
    exact parse_serialize payload

end PortableCodex.AuthBroker
