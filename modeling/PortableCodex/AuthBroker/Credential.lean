import PortableCodex.Js.Arithmetic
import PortableCodex.Js.Base64
import PortableCodex.Js.TextDecoder
import PortableCodex.ProviderState.Values

/-!
Credentials as the broker accepts them.

A `Credential` holds the check of `validateReadyCredential`: its text of tokens parses, carries its access
token and a refresh token, and the claims of both tokens agree with its account, its user, its plan and its
expiry. No signature is checked.
-/

namespace PortableCodex.AuthBroker

open Js ProviderState

/-! ### Tokens -/

/-- The fatal decoder of UTF-8, which drops a byte order mark. -/
def decodeText (bytes : Bytes) : Option JsString :=
  decodeFatal (if bytes.take 3 = [0xEF, 0xBB, 0xBF] then bytes.drop 3 else bytes)

def asMembers : Option JsValue → Option (List (JsString × JsValue))
  | some (.object members) => some members
  | _ => none

def asString : Option JsValue → Option JsString
  | some (.string s) => some s
  | _ => none

def nonempty (s : JsString) : Option JsString := if s = [] then none else some s

/-- The bytes of a segment over the alphabet, in its canonical form. -/
def decodeSegment (part : JsString) : Option Bytes := do
  ensure (part ≠ [] ∧ (∀ u ∈ part, isBase64Unit u = true) ∧ base64Url (fromBase64Url part) = part)
  some (fromBase64Url part)

/-- The members of the payload of a token. -/
def decodeJwtPayload (token : JsString) : Option (List (JsString × JsValue)) := do
  let [header, payload, signature] := token.splitOn 46 | none
  let _ ← decodeSegment header
  let bytes ← decodeSegment payload
  let _ ← decodeSegment signature
  asMembers (parseJson (← decodeText bytes))

def authClaims (payload : List (JsString × JsValue)) : List (JsString × JsValue) :=
  (asMembers (getMember payload (js "https://api.openai.com/auth"))).getD []

def userIdFromAccessToken (accessToken : JsString) : Option JsString := do
  let payload ← decodeJwtPayload accessToken
  let userId ← asString (getMember (authClaims payload) (js "chatgpt_user_id"))
  nonempty userId

/-- The values that are neither `undefined` nor `null`. -/
def present (values : List (Option JsValue)) : List JsValue :=
  values.filterMap fun value => match value with
    | some .null => none
    | value => value

/-- `value === expected` for a string. -/
def equalsString (expected : JsString) : JsValue → Bool
  | .string s => decide (s = expected)
  | _ => false

def matchingClaimValues (values : List (Option JsValue)) (expected : JsString) : Bool :=
  present values ≠ [] && (present values).all (equalsString expected)

/-! ### Credentials -/

structure CredentialFields where
  accessToken : JsString
  accountId : JsString
  authJson : JsString
  expiresAt : JsString
  planType : Option JsString
  userId : JsString
deriving DecidableEq

def planMatches (planClaims : List JsValue) : Option JsString → Bool
  | none => planClaims.isEmpty
  | some planType => !planClaims.isEmpty && planClaims.all (equalsString planType)

/-- The ISO text of the expiry in a token. -/
def expiryText : Option JsValue → Option JsString
  | some (.number exp) => (exp.times 1000).timeClip.map toISOString
  | _ => none

/-- `parseAuthJson`, with the refresh token of the text. -/
def parseAuthJson (credential : CredentialFields) : Option JsString := do
  let parsed ← asMembers (parseJson credential.authJson)
  let tokens ← asMembers (getMember parsed (js "tokens"))
  ensure (asString (getMember parsed (js "auth_mode")) = some (js "chatgpt"))
  ensure (asString (getMember tokens (js "access_token")) = some credential.accessToken)
  let refreshToken ← asString (getMember tokens (js "refresh_token"))
  let refreshToken ← nonempty refreshToken
  let idToken ← asString (getMember tokens (js "id_token"))
  let _ ← nonempty idToken
  let accessPayload ← decodeJwtPayload credential.accessToken
  let idPayload ← decodeJwtPayload idToken
  let accessAuth := authClaims accessPayload
  let idAuth := authClaims idPayload
  let account ← asString (getMember accessAuth (js "chatgpt_account_id"))
  let user ← asString (getMember accessAuth (js "chatgpt_user_id"))
  ensure (account ≠ [] ∧ user ≠ [])
  ensure (matchingClaimValues [getMember tokens (js "account_id"), getMember accessAuth (js "chatgpt_account_id"),
    getMember idAuth (js "chatgpt_account_id")] credential.accountId)
  ensure (matchingClaimValues [getMember accessAuth (js "chatgpt_user_id"), getMember idAuth (js "chatgpt_user_id")]
    credential.userId)
  ensure (planMatches (present [getMember accessAuth (js "chatgpt_plan_type"),
    getMember idAuth (js "chatgpt_plan_type")]) credential.planType)
  ensure (expiryText (getMember accessPayload (js "exp")) = some credential.expiresAt)
  some refreshToken

/-- The checks of `validateReadyCredential` on fields of the right types. -/
def IsReady (c : CredentialFields) : Prop :=
  c.accessToken ≠ [] ∧ (c.accountId ≠ [] ∧ Lossless c.accountId) ∧ (c.userId ≠ [] ∧ Lossless c.userId) ∧
    c.planType ≠ some [] ∧ IsIsoTimestamp c.expiresAt ∧ (parseAuthJson c).isSome = true

instance isReadyDecidable : DecidablePred IsReady := fun _ =>
  inferInstanceAs (Decidable (_ ∧ (_ ∧ _) ∧ (_ ∧ _) ∧ _ ∧ _ ∧ _))

abbrev Credential := { c : CredentialFields // IsReady c }

namespace Credential

/-- `refreshTokenValue` -/
def refreshTokenValue (c : Credential) : JsString := (parseAuthJson c.val).get c.property.2.2.2.2.2

/-- The account, the user and the tokens show the credential that follows another one. -/
structure Succeeds (previous c : Credential) : Prop where
  account : c.val.accountId = previous.val.accountId
  user : c.val.userId = previous.val.userId
  accessToken : c.val.accessToken ≠ previous.val.accessToken
  refreshToken : c.refreshTokenValue ≠ previous.refreshTokenValue

end Credential

/-- `READY_CREDENTIAL_KEYS` -/
def readyCredentialKeys : List JsString :=
  [js "accessToken", js "accountId", js "authJson", js "expiresAt", js "planType", js "userId"]

/-- A plan type that is a string or `null`. -/
def planTypeOf : JsValue → Option (Option JsString)
  | .null => some none
  | .string s => some (some s)
  | _ => none

/-- The fields of a credential, where they have the right types. -/
def credentialFields : List JsValue → Option CredentialFields
  | [.string accessToken, .string accountId, .string authJson, .string expiresAt, planType, .string userId] =>
      (planTypeOf planType).map fun planType => { accessToken, accountId, authJson, expiresAt, planType, userId }
  | _ => none

def readyFields (values : List JsValue) : Option Credential := do
  let c ← credentialFields values
  if h : IsReady c then some ⟨c, h⟩ else none

def validateReadyCredential (value : JsValue) : Option Credential := do
  readyFields (← exactDataFields value readyCredentialKeys)

def CredentialFields.values (c : CredentialFields) : List JsValue :=
  [.string c.accessToken, .string c.accountId, .string c.authJson, .string c.expiresAt,
    nullableJson .string c.planType, .string c.userId]

theorem credentialFields_values (c : CredentialFields) : credentialFields c.values = some c := by
  obtain ⟨accessToken, accountId, authJson, expiresAt, planType, userId⟩ := c
  cases planType <;> rfl

theorem readyFields_values (c : Credential) : readyFields c.val.values = some c := by
  rw [readyFields, credentialFields_values]
  exact dif_pos c.property

/-- The user of a credential is the one its access token names. -/
theorem Credential.userId_eq (c : Credential) : userIdFromAccessToken c.val.accessToken = some c.val.userId := by
  obtain ⟨c, -, -, ⟨nonemptyUser, -⟩, -, -, parses⟩ := c
  obtain ⟨refreshToken, parses⟩ := Option.isSome_iff_exists.mp parses
  unfold parseAuthJson at parses
  simp only [Option.bind_eq_bind, Option.bind_eq_some_iff] at parses
  obtain ⟨parsed, -, tokens, -, -, -, -, -, refresh, -, refresh', -, idToken, -, idToken', -, accessPayload, decoded,
    idPayload, -, account, -, user, readsUser, -, -, -, -, _, matching, -⟩ := parses
  have claim : getMember (authClaims accessPayload) (js "chatgpt_user_id") = some (.string user) := by
    cases member : getMember (authClaims accessPayload) (js "chatgpt_user_id") with
    | none =>
      rw [member] at readsUser
      cases readsUser
    | some value =>
      rw [member] at readsUser
      cases value with
      | string s =>
        obtain rfl := Option.some.inj readsUser
        rfl
      | _ => cases readsUser
  -- the claim of the access token is among those that match the credential's user
  have same : user = c.userId := by
    rw [ensure_eq_some_iff] at matching
    rw [claim, matchingClaimValues, Bool.and_eq_true, List.all_eq_true] at matching
    have among := matching.2 (.string user) (List.mem_filterMap.mpr ⟨some (.string user), List.mem_cons_self, rfl⟩)
    exact of_decide_eq_true among
  simp only [userIdFromAccessToken, decoded, readsUser, Option.bind_eq_bind, Option.bind_some, nonempty, same,
    if_neg nonemptyUser]

end PortableCodex.AuthBroker
