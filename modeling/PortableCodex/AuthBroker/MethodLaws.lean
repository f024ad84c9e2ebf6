import PortableCodex.AuthBroker.BrokerLaws

/-!
The methods of the broker, one triple for each.

A method that commits needs to be permitted to, at the generation that it names; the loops of
`reserveRefresh` and `commitAfterDispatch` carry the permission to the generation of what they read. The
adapter is called once, with the credential whose reservation the store has held (`triple_dispatchRefresh`).
-/

namespace PortableCodex.AuthBroker

open Js ProviderState Traces

variable {c : CallId} {kind : Kind} {pre : Shared → Prop}

/-! ### The store -/

theorem triple_readCanonical : Triple (setting c kind) (Quiet c) pre readCanonical
    fun latest s => ∀ canonical ∈ latest, Seen canonical s := by
  have read : Triple (setting c kind) (Quiet c) (fun _ => True) readCanonical
      fun latest s => ∀ canonical ∈ latest, Seen canonical s := by
    refine .seq (order_quiet c kind) triple_read lasts_true ?_
    rintro (thrown | _ | record)
    · exact .throw (order_quiet c kind)
    · refine .pure (order_quiet c kind) ?_
      intro s _ canonical never
      cases never
    · refine check_then (order_quiet c kind) fun _ => required_then (order_quiet c kind) fun payload parsed => ?_
      refine .pure (order_quiet c kind) ?_
      rintro s ⟨-, shows⟩ _ ⟨⟩
      exact ⟨shows record rfl, (serialize_of_parse parsed).symm⟩
  exact read.strengthen fun _ _ => True.intro

theorem triple_attempts (request : CasRequest) {payload : Payload} (text : request.payload = serialize payload)
    (postDispatch : Bool) (left : Nat) (mayHaveCommitted : Bool) :
    Triple (setting c kind) (Quiet c) (MayCommit c kind request payload)
      (attempts request postDispatch left mayHaveCommitted) fun _ _ => True := by
  have returns (r : Option CasResult × Bool) : Triple (setting c kind) (Quiet c)
      (MayCommit c kind request payload) (pure r : Method _) fun _ _ => True :=
    .pure (order_quiet c kind) fun _ _ => True.intro
  induction left generalizing mayHaveCommitted with
  | zero => exact returns _
  | succ left ih =>
    refine .seq (order_quiet c kind) (triple_compareAndSwap text) (quiet_of_grows (MayCommit.lasts _ _ _ _)) ?_
    intro answer
    refine .needs (MayCommit c kind request payload) (fun s known => known.1) ?_
    rcases answer with thrown | result
    · refine .ite (fun _ => .ite (fun _ => returns _) fun _ => .throw (order_quiet c kind)) fun _ => ?_
      refine .ite (fun _ => .throw (order_quiet c kind)) fun _ => .ite (fun _ => .throw (order_quiet c kind)) fun _ => ?_
      refine .ite (fun _ => .ite (fun _ => returns _) fun _ => .throw (order_quiet c kind)) fun _ => ih _
    · exact returns _

theorem triple_readbackOf {request : CasRequest} {result : Option CasResult} {mayHaveCommitted : Bool}
    {latest : Option Canonical} : Triple (setting c kind) (Quiet c) (fun s => ∀ canonical ∈ latest, Seen canonical s)
      (readbackOf request result mayHaveCommitted latest)
      fun canonical s => Seen canonical s ∧ canonical.rawPayload = request.payload := by
  cases latest with
  | none => exact .throw (order_quiet c kind)
  | some canonical =>
    refine .ite (fun shown => ?_) fun _ => .ite (fun shown => ?_) fun _ => .throw (order_quiet c kind)
    · exact .pure (order_quiet c kind) fun s known => ⟨known canonical rfl, shown.2.2⟩
    · exact .pure (order_quiet c kind) fun s known => ⟨known canonical rfl, shown.2.2⟩

/-- The payload of a commit is read back. -/
def Wrote (payload : Payload) (canonical : Canonical) (s : Shared) : Prop :=
  Seen canonical s ∧ canonical.payload = payload

theorem Wrote.lasts (payload : Payload) (canonical : Canonical) : Lasts Grows (Wrote payload canonical) := by
  rintro s s' grows ⟨seen, same⟩
  exact ⟨Seen.lasts canonical s s' grows seen, same⟩

theorem Seen.wrote {canonical : Canonical} {s : Shared} (seen : Seen canonical s) {payload : Payload}
    (text : canonical.rawPayload = serialize payload) : Wrote payload canonical s :=
  ⟨seen, serialize_injective (seen.2.symm.trans text)⟩

theorem triple_compareAndReadWith (generation : Nat) (payload : Payload) (commitId : JsString) (postDispatch : Bool) :
    Triple (setting c kind) (Quiet c) (fun s => Permits c kind generation payload s ∧ (c, commitId) ∈ s.issued)
      (compareAndReadWith generation payload commitId postDispatch) (Wrote payload) := by
  let request : CasRequest := { commitId, expectedGeneration := generation, payload := serialize payload }
  refine .needs (MayCommit c kind request payload) (fun s known => known.symm) ?_
  refine .seq (order_quiet c kind) (triple_attempts request rfl postDispatch 2 false)
    (quiet_of_grows (MayCommit.lasts _ _ _ _)) ?_
  rintro ⟨result, mayHaveCommitted⟩
  refine check_then (order_quiet c kind) fun _ => ?_
  refine .needs (fun _ => True) (fun _ _ => True.intro) ?_
  refine .seq (order_quiet c kind) triple_readCanonical.attempt lasts_true ?_
  rintro (e | latest)
  · exact .throw (order_quiet c kind)
  · refine (triple_readbackOf.strengthen fun s known => known.2 latest rfl).weaken (fun _ => id) (fun _ _ => id) ?_
    rintro canonical s ⟨seen, text⟩
    exact seen.wrote text

theorem triple_compareAndRead (generation : Nat) (payload : Payload) (postDispatch : Bool) :
    Triple (setting c kind) (Quiet c) (Permits c kind generation payload)
      (compareAndRead generation payload postDispatch) (Wrote payload) := by
  refine .seq (order_quiet c kind) (triple_randomUUID.strengthen fun _ _ => True.intro)
    (quiet_of_grows (Permits.lasts _ _ _ _)) fun id => ?_
  exact triple_compareAndReadWith generation payload id postDispatch

/-- A program after what was read is a credential. -/
theorem readyOf_then {later : Shared → Shared → Prop} {A : Type} {post : A → Shared → Prop}
    (order : (setting c kind).Order later) {latest : Option Canonical} {next : Canonical × Credential → Method A}
    (rest : ∀ canonical credential, latest = some canonical → canonical.payload = .ready credential →
      Triple (setting c kind) later pre (next (canonical, credential)) post) :
    Triple (setting c kind) later pre (readyOf latest >>= next) post := by
  unfold readyOf
  rcases latest with _ | canonical
  · exact .throw order
  · dsimp only
    cases shape : canonical.payload with
    | ready credential => exact rest canonical credential rfl shape
    | blocked status reason fence => exact .throw order

theorem Seen.granted {canonical : Canonical} {s : Shared} (seen : Seen canonical s) {credential : Credential}
    (ready : canonical.payload = .ready credential) : Granted (sensitiveGrant canonical.generation credential) s := by
  obtain ⟨held, text⟩ := seen
  rw [text, ready] at held
  exact ⟨credential, held, rfl⟩

theorem triple_grantFromCanonical {latest : Option Canonical} : Triple (setting c kind) (Quiet c)
    (fun s => ∀ canonical ∈ latest, Seen canonical s) (grantFromCanonical latest) Granted := by
  refine readyOf_then (order_quiet c kind) fun canonical credential found ready => ?_
  exact .pure (order_quiet c kind) fun s seen => (seen canonical found).granted ready

/-! ### Explicit credentials -/

/-- A program after what was read is no fence. -/
theorem unblocked_then {A : Type} {post : A → Shared → Prop} {before : Option Canonical} {next : Unit → Method A}
    (rest : (∀ canonical ∈ before, ∃ credential, canonical.payload = .ready credential) →
      Triple (setting c kind) (Quiet c) pre (next ()) post) :
    Triple (setting c kind) (Quiet c) pre (unblocked before >>= next) post := by
  unfold unblocked
  rcases before with _ | canonical
  · refine rest ?_
    intro canonical never
    cases never
  · dsimp only
    cases shape : canonical.payload with
    | ready credential =>
      refine rest ?_
      rintro _ ⟨⟩
      exact ⟨credential, shape⟩
    | blocked status reason fence => exact .throw (order_quiet c kind)

/-- What was read is the newest version at its generation. -/
theorem Seen.head {canonical : Canonical} {s : Shared} (seen : Seen canonical s) :
    ∃ version older, s.history.past canonical.generation = version :: older ∧
      version.raw = serialize canonical.payload ∧ older.length + 1 = canonical.generation := by
  obtain ⟨⟨bound, version, older, past, raw⟩, text⟩ := seen
  refine ⟨version, older, past, raw.trans text, ?_⟩
  have count := History.length_past bound
  rw [past, List.length_cons] at count
  exact count

theorem permits_install {value : JsValue} {credential : Credential} {before : Option Canonical} {s : Shared}
    (valid : validateReadyCredential value = some credential) (seen : ∀ canonical ∈ before, Seen canonical s)
    (ready : ∀ canonical ∈ before, ∃ credential, canonical.payload = .ready credential) :
    Permits c (.installCredential value) (generationOf before) (.ready credential) s := by
  cases before with
  | none =>
    refine ⟨Nat.zero_le _, .install rfl valid ?_⟩
    rw [generationOf, History.past_zero]
    intro version never
    cases never
  | some canonical =>
    obtain ⟨version, older, past, raw, -⟩ := (seen canonical rfl).head
    obtain ⟨source, shape⟩ := ready canonical rfl
    refine ⟨(seen canonical rfl).1.1, .install rfl valid ?_⟩
    rw [generationOf, past]
    rintro _ ⟨⟩
    exact ⟨source, by rw [raw, shape]⟩

theorem triple_installCredential (value : JsValue) :
    Triple (setting c (.installCredential value)) (Quiet c) pre (installCredential value) fun _ _ => True := by
  refine .needs (fun _ => True) (fun _ _ => True.intro) ?_
  refine .seq (order_quiet c _) triple_readCanonical lasts_true fun before => ?_
  refine unblocked_then fun ready => required_then (order_quiet c _) fun credential valid => ?_
  refine .needs (Permits c (.installCredential value) (generationOf before) (.ready credential))
    (fun s known => permits_install valid known.2 ready) ?_
  refine .seq (order_quiet c _) (triple_compareAndRead _ _ _) (quiet_of_grows (Permits.lasts _ _ _ _)) fun _ => ?_
  exact check_then (order_quiet c _) fun _ => .pure (order_quiet c _) fun _ _ => True.intro

theorem triple_checkReplacement {replacement : Credential} {fence : Fence} :
    Triple (setting c kind) (Quiet c) pre (checkReplacement replacement fence) fun _ _ => Replaces replacement fence := by
  refine check_then (order_quiet c kind) fun account => check_then (order_quiet c kind) fun user => ?_
  refine check_then (order_quiet c kind) fun accessToken => .ite (fun refreshToken => ?_) fun _ => .throw (order_quiet c kind)
  exact .pure (order_quiet c kind) fun _ _ => ⟨account, user, accessToken, refreshToken⟩

theorem triple_recoverReservationCommit (generation : Nat) (replacement : Credential) :
    Triple (setting c kind) (Quiet c) (Permits c kind generation (.ready replacement))
      (recoverReservationCommit generation replacement) fun _ _ => True := by
  refine .seq (order_quiet c kind) (triple_compareAndRead _ _ _).attempt (quiet_of_grows (Permits.lasts _ _ _ _)) ?_
  rintro (e | canonical)
  · refine check_then (order_quiet c kind) fun _ => ?_
    refine .needs (fun _ => True) (fun _ _ => True.intro) ?_
    refine .seq (order_quiet c kind) triple_readCanonical.attempt lasts_true ?_
    rintro (_ | _ | latest)
    · exact .throw (order_quiet c kind)
    · exact .throw (order_quiet c kind)
    · exact check_then (order_quiet c kind) fun _ => .pure (order_quiet c kind) fun _ _ => True.intro
  · exact .pure (order_quiet c kind) fun _ _ => True.intro

/-- The fence that a request names is in the store at the generation that it names. -/
theorem fenceOf_eq {request : RecoverRequest} {before : Option Canonical} {status : BlockedStatus} {reason : Reason}
    {fence : Fence} (h : fenceOf request before = some (status, reason, fence)) :
    ∃ canonical, before = some canonical ∧ canonical.payload = .blocked status reason fence ∧
      canonical.generation = request.expectedGeneration ∧ fence.reservationId = request.reservationId := by
  unfold fenceOf at h
  cases before with
  | none => cases h
  | some canonical =>
    dsimp only at h
    cases shape : canonical.payload with
    | ready credential =>
      rw [shape] at h
      cases h
    | blocked found foundReason foundFence =>
      rw [shape] at h
      dsimp only at h
      split at h
      · rename_i named
        cases h
        exact ⟨canonical, rfl, shape, named⟩
      · cases h

theorem triple_recoverRefreshReservation (value : JsValue) :
    Triple (setting c (.recoverRefreshReservation value)) (Quiet c) pre (recoverRefreshReservation value)
      fun _ _ => True := by
  refine .needs (fun _ => True) (fun _ _ => True.intro) ?_
  refine required_then (order_quiet c _) fun request read => required_then (order_quiet c _) fun replacement valid => ?_
  refine .seq (order_quiet c _) triple_readCanonical lasts_true fun before => ?_
  refine required_then (order_quiet c _) ?_
  rintro ⟨status, reason, fence⟩ named
  obtain ⟨canonical, rfl, shape, generation, id⟩ := fenceOf_eq named
  refine .needs (Seen canonical) (fun s known => known.2 canonical rfl) ?_
  refine .seq (order_quiet c _) triple_checkReplacement (quiet_of_grows (Seen.lasts canonical)) fun _ => ?_
  refine .known fun replaces => ?_
  refine .needs (Permits c (.recoverRefreshReservation value) request.expectedGeneration (.ready replacement)) ?_ ?_
  · intro s seen
    obtain ⟨version, older, past, raw, count⟩ := seen.head
    rw [generation] at past count
    refine ⟨generation ▸ seen.1.1, ?_⟩
    rw [past]
    exact .recover rfl read valid (raw.trans (by rw [shape])) count id replaces
  · refine .seq (order_quiet c _) (triple_recoverReservationCommit _ _) (quiet_of_grows (Permits.lasts _ _ _ _)) fun _ => ?_
    exact .pure (order_quiet c _) fun _ _ => True.intro

/-! ### A refresh -/

/-- A call may replace a text by a payload, at any generation. -/
def MayReplace (c : CallId) (kind : Kind) (raw : JsString) (payload : Payload) (s : Shared) : Prop :=
  ∀ (version : Version) (older : History), version.raw = raw → Change kind (Owned c s) (version :: older) payload

theorem MayReplace.lasts (c : CallId) (kind : Kind) (raw : JsString) (payload : Payload) :
    Lasts Grows (MayReplace c kind raw payload) :=
  fun _ _ grows h version older same => (h version older same).mono fun _ own => grows.issued _ own

theorem MayReplace.permits {current : Canonical} {raw : JsString} {payload : Payload} {s : Shared}
    (h : MayReplace c kind raw payload s) (seen : Seen current s) (text : current.rawPayload = raw) :
    Permits c kind current.generation payload s := by
  obtain ⟨⟨bound, version, older, past, same⟩, -⟩ := seen
  refine ⟨bound, ?_⟩
  rw [past]
  exact h version older (same.trans text)

/-- A version of a text that the call may replace. -/
def Rebased (c : CallId) (kind : Kind) (raw : JsString) (payload : Payload) (current : Canonical) (s : Shared) : Prop :=
  MayReplace c kind raw payload s ∧ Seen current s ∧ current.rawPayload = raw

theorem Rebased.lasts (c : CallId) (kind : Kind) (raw : JsString) (payload : Payload) (current : Canonical) :
    Lasts Grows (Rebased c kind raw payload current) := by
  rintro s s' grows ⟨may, seen, text⟩
  exact ⟨MayReplace.lasts c kind raw payload s s' grows may, Seen.lasts current s s' grows seen, text⟩

theorem triple_reserveLoop (before : Canonical) (reservation : Payload) (left : Nat) (current : Canonical) :
    Triple (setting c kind) (Quiet c) (Rebased c kind before.rawPayload reservation current)
      (reserveLoop before reservation left current) (Wrote reservation) := by
  induction left generalizing current with
  | zero => exact .throw (order_quiet c kind)
  | succ left ih =>
    have lasts := quiet_of_grows (c := c) (Rebased.lasts c kind before.rawPayload reservation current)
    refine .seq (order_quiet c kind) (triple_randomUUID.strengthen fun _ _ => True.intro) lasts fun commitId => ?_
    have commits := (triple_compareAndReadWith (c := c) current.generation reservation commitId false).strengthen
      fun s (known : Rebased c kind before.rawPayload reservation current s ∧ (c, commitId) ∈ s.issued) =>
        ⟨known.1.1.permits known.1.2.1 known.1.2.2, known.2⟩
    have given : Lasts (Quiet c) fun s => (c, commitId) ∈ s.issued := fun _ _ quiet own => quiet.grows.issued _ own
    refine .seq (order_quiet c kind) commits.attempt (lasts.and given) ?_
    rintro (e | canonical)
    · refine check_then (order_quiet c kind) fun _ => ?_
      refine .needs (MayReplace c kind before.rawPayload reservation) (fun s known => known.1.1.1) ?_
      refine .seq (order_quiet c kind) triple_readCanonical (quiet_of_grows (MayReplace.lasts _ _ _ _)) ?_
      rintro (_ | latest)
      · exact .throw (order_quiet c kind)
      · refine .ite (fun shown => ?_) fun _ => check_then (order_quiet c kind) fun same => ?_
        · exact .pure (order_quiet c kind) fun s known => (known.2 latest rfl).wrote shown.1
        · exact .needs _ (fun s known => ⟨known.1, known.2 latest rfl, same⟩) (ih latest)
    · exact .pure (order_quiet c kind) fun s known => known.2 canonical rfl

theorem triple_commitLoop (before : Canonical) (payload : Payload) (left : Nat) (current : Canonical) :
    Triple (setting c kind) (Quiet c) (Rebased c kind before.rawPayload payload current)
      (commitLoop before payload left current) (Wrote payload) := by
  induction left generalizing current with
  | zero => exact .throw (order_quiet c kind)
  | succ left ih =>
    have commits := (triple_compareAndRead (c := c) current.generation payload true).strengthen
      fun s (known : Rebased c kind before.rawPayload payload current s) => known.1.permits known.2.1 known.2.2
    refine .seq (order_quiet c kind) commits.attempt (quiet_of_grows (Rebased.lasts _ _ _ _ _)) ?_
    rintro (e | canonical)
    · refine check_then (order_quiet c kind) fun _ => ?_
      refine .needs (MayReplace c kind before.rawPayload payload) (fun s known => known.1.1) ?_
      refine .seq (order_quiet c kind) triple_readCanonical.attempt (quiet_of_grows (MayReplace.lasts _ _ _ _)) ?_
      rintro (_ | _ | latest)
      · exact .throw (order_quiet c kind)
      · exact .throw (order_quiet c kind)
      · refine .ite (fun shown => ?_) fun _ => check_then (order_quiet c kind) fun same => ?_
        · exact .pure (order_quiet c kind) fun s known => (known.2 _ rfl latest rfl).wrote shown
        · exact .needs _ (fun s known => ⟨known.1, known.2 _ rfl latest rfl, same⟩) (ih latest)
    · exact .pure (order_quiet c kind) fun s known => known.2 canonical rfl

/-- The reservation of a call. -/
def Reservation (c : CallId) (source : Credential) (id : OpaqueId) (canonical : Canonical) (s : Shared) : Prop :=
  Owned c s id ∧ Wrote (refreshReservationPayload source id) canonical s

theorem Reservation.lasts (c : CallId) (source : Credential) (id : OpaqueId) (canonical : Canonical) :
    Lasts Grows (Reservation c source id canonical) := by
  rintro s s' grows ⟨own, wrote⟩
  exact ⟨grows.issued _ own, Wrote.lasts _ canonical s s' grows wrote⟩

theorem triple_commitAfterDispatch {source : Credential} {id : OpaqueId} {reservation : Canonical} {payload : Payload}
    (replaces : ∀ owned : OpaqueId → Prop, owned id → ∀ (version : Version) (older : History),
      version.raw = serialize (refreshReservationPayload source id) → Change kind owned (version :: older) payload) :
    Triple (setting c kind) (Quiet c) (Reservation c source id reservation) (commitAfterDispatch reservation payload)
      (Wrote payload) := by
  refine .needs _ ?_ (triple_commitLoop reservation payload maxStorageOnlyRebases reservation)
  rintro s ⟨own, seen, same⟩
  refine ⟨?_, seen, rfl⟩
  intro version older text
  exact replaces _ own version older (text.trans (seen.2.trans (by rw [same])))

theorem triple_transitionBlocked {A : Type} {post : A → Shared → Prop} {source : Credential} {id : OpaqueId}
    {reservation : Canonical} (status : BlockedStatus) (reason : Reason) :
    Triple (setting c kind) (Quiet c) (Reservation c source id reservation)
      (transitionBlocked reservation status reason) post := by
  by_cases same : reservation.payload = refreshReservationPayload source id
  · unfold transitionBlocked
    rw [same]
    refine .seq (order_quiet c kind) (triple_commitAfterDispatch ?_) (quiet_of_grows (Reservation.lasts _ _ _ _)) ?_
    · intro owned own version older text
      refine .block text own ?_
      split
      · cases status <;> decide
      · exact ‹_›
    · intro canonical
      split
      · exact .throw (order_quiet c kind)
      · exact check_then (order_quiet c kind) fun _ => .throw (order_quiet c kind)
  · intro s known
    exact absurd known.2.2 same

theorem triple_readClock : Triple (setting c kind) (Quiet c) pre readClock fun _ _ => True := by
  refine .needs (fun _ => True) (fun _ _ => True.intro) ?_
  refine .seq (order_quiet c kind) triple_now lasts_true fun answer => ?_
  unfold required
  split
  · exact .pure (order_quiet c kind) fun _ _ => True.intro
  · exact .throw (order_quiet c kind)

theorem triple_tokenTtlSeconds {expiresAt : JsString} :
    Triple (setting c kind) (Quiet c) pre (tokenTtlSeconds expiresAt) fun _ _ => True := by
  refine .needs (fun _ => True) (fun _ _ => True.intro) ?_
  refine .seq (order_quiet c kind) triple_readClock lasts_true fun now => ?_
  exact .pure (order_quiet c kind) fun _ _ => True.intro

theorem triple_checkTtl {expiresAt : JsString} {minTtlSeconds : JsNumber} {e : BrokerError} :
    Triple (setting c kind) (Quiet c) pre (checkTtl expiresAt minTtlSeconds e) fun _ _ => True := by
  refine .needs (fun _ => True) (fun _ _ => True.intro) ?_
  refine .seq (order_quiet c kind) triple_tokenTtlSeconds lasts_true fun ttl => ?_
  refine .ite (fun _ => ?_) fun _ => .throw (order_quiet c kind)
  exact .pure (order_quiet c kind) fun _ _ => True.intro

theorem triple_validateRefreshCandidate {previous : Credential} {candidate : Option JsValue} {minTtlSeconds : JsNumber} :
    Triple (setting c kind) (Quiet c) pre (validateRefreshCandidate previous candidate minTtlSeconds)
      fun credential _ => previous.Succeeds credential := by
  refine required_then (order_quiet c kind) fun credential _ => check_then (order_quiet c kind) fun account => ?_
  refine check_then (order_quiet c kind) fun user => check_then (order_quiet c kind) fun accessToken => ?_
  refine check_then (order_quiet c kind) fun refreshToken => ?_
  refine .needs (fun _ => True) (fun _ _ => True.intro) ?_
  refine .seq (order_quiet c kind) triple_checkTtl lasts_true fun _ => ?_
  exact .pure (order_quiet c kind) fun _ _ => ⟨account, user, accessToken, refreshToken⟩

theorem triple_settle (broker : Broker) {source : Credential} {id : OpaqueId} {reservation : Canonical}
    (answer : Except AdapterError (Option JsValue)) :
    Triple (setting c kind) (Quiet c) (Reservation c source id reservation) (settle broker source reservation answer)
      Granted := by
  have lasts := quiet_of_grows (c := c) (Reservation.lasts c source id reservation)
  rcases answer with error | candidate
  · unfold settle
    dsimp only
    split
    · refine .seq (order_quiet c kind) (triple_commitAfterDispatch ?_) lasts fun _ => .throw (order_quiet c kind)
      exact fun owned own version older text => .restore text own
    · exact triple_transitionBlocked _ _
    · exact triple_transitionBlocked _ _
  · refine .seq (order_quiet c kind) triple_validateRefreshCandidate.attempt lasts ?_
    rintro (e | credential)
    · exact (triple_transitionBlocked _ _).strengthen fun s known => known.1
    · refine .needs (fun s => Reservation c source id reservation s ∧ source.Succeeds credential)
        (fun s known => ⟨known.1, known.2 credential rfl⟩) (.known fun succeeds => ?_)
      refine .seq (order_quiet c kind) (triple_commitAfterDispatch ?_) lasts fun canonical => ?_
      · exact fun owned own version older text => .refresh text own succeeds
      · refine triple_grantFromCanonical.strengthen ?_
        rintro s ⟨-, wrote⟩ _ ⟨⟩
        exact wrote.1

theorem undispatched_lasts (c : CallId) : Lasts (Quiet c) (Undispatched c) := fun _ _ quiet => quiet.undispatched

/-- The one call of the adapter. -/
theorem triple_refresh {source : Credential} {id : OpaqueId} {reservation : Canonical} :
    Triple (setting c kind) Grows (fun s => Undispatched c s ∧ Reservation c source id reservation s)
      (perform (.refresh { credential := source, expectedGeneration := reservation.generation, attemptId := id }))
      fun _ => Reservation c source id reservation := by
  refine .perform (order_grows c kind) ?_
  rintro s before ⟨undispatched, known⟩ ⟨quiet, -⟩ answer after rfl
  have reserved := Reservation.lasts c source id reservation s before quiet.grows known
  obtain ⟨own, ⟨held, text⟩, same⟩ := reserved
  have grows : Grows before (before.dispatch c
      { credential := source, expectedGeneration := reservation.generation, attemptId := id }) :=
    ⟨⟨[], rfl⟩, fun _ inside => inside⟩
  refine ⟨.dispatch (quiet.undispatched undispatched) ⟨?_, own⟩, grows, ?_⟩
  · rw [← same, ← text]
    exact held
  · exact Reservation.lasts c source id reservation before _ grows ⟨own, ⟨held, text⟩, same⟩

theorem Quiet.toGrows : ∀ s s', Quiet c s s' → Grows s s' := fun _ _ quiet => quiet.grows

theorem triple_dispatchRefresh (broker : Broker) {before : Canonical} {source : Credential}
    (ready : before.payload = .ready source) :
    Triple (setting c kind) Grows (fun s => Undispatched c s ∧ Seen before s) (dispatchRefresh broker before source)
      Granted := by
  have order := order_grows c kind
  have lasts : Lasts (Quiet c) fun s => Undispatched c s ∧ Seen before s :=
    (undispatched_lasts c).and (quiet_of_grows (Seen.lasts before))
  refine .bind order triple_readClock Quiet.toGrows lasts fun _ => ?_
  refine .needs (fun s => Undispatched c s ∧ Seen before s) (fun s known => known.1) ?_
  refine .bind order (triple_randomUUID.strengthen fun _ _ => True.intro) Quiet.toGrows lasts fun text => ?_
  refine required_then order fun id reads => ?_
  refine .needs (fun s => Undispatched c s ∧ Owned c s id ∧
    Rebased c kind before.rawPayload (refreshReservationPayload source id) before s) ?_ ?_
  · rintro s ⟨⟨undispatched, seen⟩, issued⟩
    have own : Owned c s id := by
      unfold canonicalOpaqueId checkedText at reads
      dsimp only at reads
      split at reads
      · obtain rfl := Option.some.inj reads
        exact issued
      · cases reads
    refine ⟨undispatched, own, ?_, seen, rfl⟩
    intro version older same
    exact .reserve (same.trans (seen.2.trans (by rw [ready]))) own
  · refine .bind order ((triple_reserveLoop before _ maxStorageOnlyRebases before).strengthen fun s known => known.2.2)
      Quiet.toGrows ?_ fun reservation => ?_
    · exact (undispatched_lasts c).and ((quiet_of_grows (owned_lasts c id)).and (quiet_of_grows (Rebased.lasts _ _ _ _ _)))
    · refine .needs (fun s => Undispatched c s ∧ Reservation c source id reservation s)
        (fun s known => ⟨known.1.1, known.1.2.1, known.2⟩) ?_
      refine triple_refresh.andThen order (fun _ _ grows => grows) fun answer => ?_
      exact (triple_settle broker answer).weaken (fun _ known => known) Quiet.toGrows fun _ _ granted => granted

/-! ### Shared refreshes -/

theorem triple_refreshOnce (broker : Broker) (expected : Expected) :
    Triple (setting c kind) Grows (Undispatched c) (refreshOnce broker expected) Granted := by
  have order := order_grows c kind
  refine .bind order triple_readCanonical Quiet.toGrows (undispatched_lasts c) fun latest => ?_
  refine readyOf_then order fun before source found ready => check_then order fun _ => ?_
  subst found
  refine .needs (fun s => Undispatched c s ∧ Seen before s) (fun s known => ⟨known.1, known.2 before rfl⟩) ?_
  refine .ite (fun _ => triple_dispatchRefresh broker ready) fun _ => check_then order fun _ => ?_
  exact .pure order fun s known => known.2.granted ready

theorem triple_refreshShared (broker : Broker) (minTtlSeconds : JsNumber) (expected : Expected) (left : Nat) :
    Triple (setting c kind) (Quiet c) pre (refreshShared broker minTtlSeconds expected left) fun grant s =>
      Granted grant s ∧ grant.accountId = expected.accountId ∧ grant.accessToken ≠ expected.accessToken := by
  refine .needs (fun _ => True) (fun _ _ => True.intro) ?_
  induction left with
  | zero => exact .throw (order_quiet c kind)
  | succ left ih =>
    refine .seq (order_quiet c kind) triple_sharedRefresh lasts_true fun answer => ?_
    refine required_then (order_quiet c kind) fun task _ => ?_
    refine .needs (fun _ => True) (fun _ _ => True.intro) ?_
    refine .seq (order_quiet c kind) triple_awaitTask lasts_true ?_
    rintro (e | grant)
    · exact .throw (order_quiet c kind)
    · refine check_then (order_quiet c kind) fun account => ?_
      refine .needs (Granted grant) (fun s known => known.2 grant rfl) ?_
      refine .ite (fun _ => ih.strengthen fun _ _ => True.intro) fun other => ?_
      refine .seq (order_quiet c kind) triple_checkTtl (quiet_of_grows (Granted.lasts grant)) fun _ => ?_
      exact .pure (order_quiet c kind) fun s known => ⟨known.1, account, other⟩

theorem triple_joinActiveRefresh (broker : Broker) (minTtlSeconds : JsNumber) (expectedAccountId : Option JsString) :
    Triple (setting c kind) (Quiet c) pre (joinActiveRefresh broker minTtlSeconds expectedAccountId)
      fun joined s => ∀ grant ∈ joined, Granted grant s ∧ ∀ accountId ∈ expectedAccountId, grant.accountId = accountId := by
  refine .needs (fun _ => True) (fun _ _ => True.intro) ?_
  refine .seq (order_quiet c kind) triple_joinSharedRefresh lasts_true fun answer => ?_
  refine required_then (order_quiet c kind) ?_
  rintro (_ | task) -
  · refine .pure (order_quiet c kind) ?_
    intro s _ grant never
    cases never
  · refine .needs (fun _ => True) (fun _ _ => True.intro) ?_
    refine .seq (order_quiet c kind) triple_awaitTask lasts_true ?_
    rintro (e | grant)
    · exact .throw (order_quiet c kind)
    · refine check_then (order_quiet c kind) fun account => ?_
      refine .needs (Granted grant) (fun s known => known.2 grant rfl) ?_
      refine .seq (order_quiet c kind) triple_checkTtl (quiet_of_grows (Granted.lasts grant)) fun _ => ?_
      refine .pure (order_quiet c kind) ?_
      rintro s ⟨granted, -⟩ _ ⟨⟩
      exact ⟨granted, account⟩

/-! ### Grants -/

theorem triple_grantOrRefresh (broker : Broker) (ttl : JsNumber) (latest : Option Canonical) :
    Triple (setting c kind) (Quiet c) (fun s => ∀ canonical ∈ latest, Seen canonical s)
      (grantOrRefresh broker ttl latest) Granted := by
  refine triple_grantFromCanonical.andThen (order_quiet c kind) (fun _ _ => id) fun grant => ?_
  refine .seq (order_quiet c kind) triple_tokenTtlSeconds (quiet_of_grows (Granted.lasts grant)) fun left => ?_
  refine .ite (fun _ => ?_) fun _ => .pure (order_quiet c kind) fun s known => known.1
  exact (triple_refreshShared broker ttl _ _).weaken (fun _ known => known) (fun _ _ => id) fun _ _ known => known.1

theorem triple_getGrant (broker : Broker) (options : Option JsValue) :
    Triple (setting c kind) (Quiet c) pre (getGrant broker options) Granted := by
  refine required_then (order_quiet c kind) fun ttl _ => ?_
  refine .needs (fun _ => True) (fun _ _ => True.intro) ?_
  refine .seq (order_quiet c kind) triple_readCanonical lasts_true fun canonical => ?_
  split
  · exact (triple_grantOrRefresh broker ttl canonical).strengthen fun s known => known.2
  · refine .needs (fun _ => True) (fun _ _ => True.intro) ?_
    refine .seq (order_quiet c kind) (triple_joinActiveRefresh broker ttl none) lasts_true ?_
    rintro (_ | joined)
    · refine .needs (fun _ => True) (fun _ _ => True.intro) ?_
      refine triple_readCanonical.andThen (order_quiet c kind) (fun _ _ => id) fun latest => ?_
      exact triple_grantOrRefresh broker ttl latest
    · exact .pure (order_quiet c kind) fun s known => (known.2 joined rfl).1

theorem triple_refreshGrant (broker : Broker) (options : Option JsValue) :
    Triple (setting c kind) (Quiet c) pre (refreshGrant broker options) Granted := by
  have refreshes (ttl : JsNumber) (grant : Grant) : Triple (setting c kind) (Quiet c) (Granted grant)
      (refreshShared broker ttl (expectedOf grant) maxSharedRefreshRechecks) Granted :=
    (triple_refreshShared broker ttl _ _).weaken (fun _ known => known) (fun _ _ => id) fun _ _ known => known.1
  refine required_then (order_quiet c kind) fun ttl _ => ?_
  refine .needs (fun _ => True) (fun _ _ => True.intro) ?_
  refine .seq (order_quiet c kind) triple_readCanonical lasts_true fun canonical => ?_
  split
  · refine .needs (fun s => ∀ found ∈ canonical, Seen found s) (fun s known => known.2) ?_
    exact triple_grantFromCanonical.andThen (order_quiet c kind) (fun _ _ => id) (refreshes ttl)
  · refine .needs (fun _ => True) (fun _ _ => True.intro) ?_
    refine .seq (order_quiet c kind) (triple_joinActiveRefresh broker ttl none) lasts_true ?_
    rintro (_ | joined)
    · refine .needs (fun _ => True) (fun _ _ => True.intro) ?_
      refine triple_readCanonical.andThen (order_quiet c kind) (fun _ _ => id) fun latest => ?_
      refine triple_grantFromCanonical.andThen (order_quiet c kind) (fun _ _ => id) fun current => ?_
      refine .ite (fun _ => refreshes ttl current) fun _ => ?_
      refine .seq (order_quiet c kind) triple_checkTtl (quiet_of_grows (Granted.lasts current)) fun _ => ?_
      exact .pure (order_quiet c kind) fun s known => known.1
    · exact .pure (order_quiet c kind) fun s known => (known.2 joined rfl).1

/-! ### Workers -/

/-- The worker that the broker remembers has been given the token. -/
def Handed (broker : Broker) (d : Delivery) (s : Shared) : Prop :=
  ∃ grant userId, Names grant userId s ∧ deliver grant = { d with type := none } ∧ s.workers broker = .of grant userId

theorem Handed.delivered {broker : Broker} {d : Delivery} {s : Shared} (h : Handed broker d s) : Delivered d s := by
  obtain ⟨grant, userId, names, shows, -⟩ := h
  exact ⟨grant, names.1, shows⟩

section Workers

variable {broker : Broker} {grant : Grant}

@[simp] theorem expects_snd (condition : Worker → Prop) [DecidablePred condition] (worker : Worker) :
    (expects condition worker).2 = worker := rfl

@[simp] theorem expectsUser_snd (accessToken : JsString) (worker : Worker) :
    (expectsUser accessToken worker).2 = worker := by
  unfold expectsUser
  split <;> rfl

theorem login_ok {before worker : Worker} (h : login grant before = (.ok (), worker)) :
    ∃ userId, userIdFromAccessToken grant.accessToken = some userId ∧ worker = .of grant userId := by
  unfold login at h
  split at h
  · rename_i userId named
    exact ⟨userId, named, (Prod.mk.inj h).2.symm⟩
  · cases (Prod.mk.inj h).1

theorem adopt_ok {condition : Worker → Prop} [DecidablePred condition] {before worker : Worker}
    (h : adopt grant condition before = (.ok (), worker)) :
    ∃ userId, userIdFromAccessToken grant.accessToken = some userId ∧ worker = .of grant userId := by
  unfold adopt at h
  split at h
  · cases (Prod.mk.inj h).1
  · rename_i userId named
    split at h
    · exact ⟨userId, named, (Prod.mk.inj h).2.symm⟩
    · cases (Prod.mk.inj h).1

/-- A login leaves the worker of its grant. -/
theorem login_admits {options : Option JsValue} {s : Shared} (granted : Granted grant s) (worker : Worker) :
    ∃ userId, (login grant worker).2 = .of grant userId ∧ Names grant userId s ∧
      Admits (.workerLoginParams broker options) broker worker grant userId := by
  obtain ⟨userId, names⟩ := granted.names
  refine ⟨userId, ?_, names, .login rfl⟩
  rw [login, names.2]

/-- A refresh leaves the worker as it is, or gives it another token of its user. -/
theorem adopt_admits {condition : Worker → Prop} [DecidablePred condition] {params : JsValue} {s : Shared}
    (granted : Granted grant s) (account : workerParams params = some grant.accountId) (worker : Worker) :
    (adopt grant condition worker).2 = worker ∨ ∃ userId, (adopt grant condition worker).2 = .of grant userId ∧
      Names grant userId s ∧ Admits (.handleWorkerRefresh broker params) broker worker grant userId := by
  obtain ⟨userId, names⟩ := granted.names
  rw [adopt, names.2]
  dsimp only
  by_cases same : condition worker ∧ worker.userId = some userId
  · rw [if_pos same]
    exact .inr ⟨userId, rfl, names, .refresh rfl account same.2⟩
  · rw [if_neg same]
    exact .inl rfl

/-- The end of a method that gives its worker a token. -/
theorem triple_give {action : WorkerAction} {d : Delivery} (shows : deliver grant = { d with type := none })
    (gives : ∀ before worker, action before = (.ok (), worker) →
      ∃ userId, userIdFromAccessToken grant.accessToken = some userId ∧ worker = .of grant userId)
    (may : ∀ s worker, Granted grant s → (action worker).2 = worker ∨
      ∃ userId, (action worker).2 = .of grant userId ∧ Names grant userId s ∧ Admits kind broker worker grant userId) :
    Triple (setting c kind) (Quiet c) (Granted grant) (withWorker broker action >>= fun _ => pure d)
      fun given s => Handed broker given s ∧ given = d := by
  have lasts := quiet_of_grows (c := c) (Granted.lasts grant)
  refine .seq (order_quiet c kind) (triple_withWorker lasts ?_) lasts fun worker => .pure (order_quiet c kind) ?_
  · intro s worker granted
    rcases may s worker granted with same | ⟨userId, left⟩
    · exact .inl same
    · exact .inr ⟨grant, userId, left⟩
  · rintro s ⟨granted, left, before, done⟩
    obtain ⟨userId, named, rfl⟩ := gives before worker done
    exact ⟨⟨grant, userId, ⟨granted, named⟩, shows, left⟩, rfl⟩

/-- A look at the worker that leaves it as it is. -/
theorem triple_look {action : WorkerAction} (same : ∀ worker, (action worker).2 = worker) :
    Triple (setting c kind) (Quiet c) pre (withWorker broker action) fun _ _ => True := by
  refine .needs (fun _ => True) (fun _ _ => True.intro) ?_
  exact (triple_withWorker lasts_true fun _ worker _ => .inl (same worker)).weaken (fun _ => id) (fun _ _ => id)
    fun _ _ _ => True.intro

theorem triple_workerLoginParams (broker : Broker) (options : Option JsValue) :
    Triple (setting c (.workerLoginParams broker options)) (Quiet c) pre (workerLoginParams broker options)
      (Handed broker) := by
  refine (triple_getGrant broker options).andThen (order_quiet c _) (fun _ _ => id) fun grant => ?_
  have shows : deliver grant = { ({ deliver grant with type := some (js "chatgptAuthTokens") } : Delivery) with type := none } :=
    rfl
  exact (triple_give shows (fun _ _ => login_ok) fun _ worker granted => .inr (login_admits granted worker)).weaken
    (fun _ => id) (fun _ _ => id) fun _ _ known => known.1

variable {params : JsValue} {previousAccountId : JsString}

/-- The delivery is for the account that the worker has named. -/
def Answered (broker : Broker) (params : JsValue) (d : Delivery) (s : Shared) : Prop :=
  Handed broker d s ∧ workerParams params = some d.chatgptAccountId

theorem triple_answer {condition : Worker → Prop} [DecidablePred condition]
    (account : workerParams params = some grant.accountId) :
    Triple (setting c (.handleWorkerRefresh broker params)) (Quiet c) (Granted grant)
      (withWorker broker (adopt grant condition) >>= fun _ => pure (deliver grant)) (Answered broker params) := by
  have shows : deliver grant = { deliver grant with type := none } := rfl
  refine (triple_give shows (fun _ _ => adopt_ok) fun _ worker granted => adopt_admits granted account worker).weaken
    (fun _ => id) (fun _ _ => id) ?_
  rintro d s ⟨handed, rfl⟩
  exact ⟨handed, account⟩

theorem triple_refreshWorker (named : workerParams params = some previousAccountId) (latest : Option Canonical) :
    Triple (setting c (.handleWorkerRefresh broker params)) (Quiet c) (fun s => ∀ canonical ∈ latest, Seen canonical s)
      (refreshWorker broker previousAccountId latest) (Answered broker params) := by
  refine triple_grantFromCanonical.andThen (order_quiet c _) (fun _ _ => id) fun current => ?_
  refine check_then (order_quiet c _) fun _ => ?_
  refine (triple_look (expectsUser_snd _)).andThen (order_quiet c _) (fun _ _ => id) fun worker => ?_
  refine required_then (order_quiet c _) fun expected _ => ?_
  refine (triple_refreshShared broker _ _ _).andThen (order_quiet c _) (fun _ _ => id) fun grant => ?_
  refine check_then (order_quiet c _) fun account => ?_
  exact (triple_answer (by rw [account]; exact named)).strengthen fun _ known => known.1

theorem triple_handleWorkerRefresh (broker : Broker) (params : JsValue) :
    Triple (setting c (.handleWorkerRefresh broker params)) (Quiet c) pre (handleWorkerRefresh broker params)
      (Answered broker params) := by
  refine required_then (order_quiet c _) fun previousAccountId named => ?_
  refine (triple_look fun _ => rfl).andThen (order_quiet c _) (fun _ _ => id) fun _ => ?_
  refine .needs (fun _ => True) (fun _ _ => True.intro) ?_
  refine .seq (order_quiet c _) triple_readCanonical lasts_true fun before => ?_
  split
  · exact (triple_refreshWorker named before).strengthen fun s known => known.2
  · refine (triple_look fun _ => rfl).andThen (order_quiet c _) (fun _ _ => id) fun _ => ?_
    refine (triple_joinActiveRefresh broker _ _).andThen (order_quiet c _) (fun _ _ => id) ?_
    rintro (_ | joined)
    · refine triple_readCanonical.andThen (order_quiet c _) (fun _ _ => id) fun latest => ?_
      exact triple_refreshWorker named latest
    · refine .needs (fun s => Granted joined s ∧ joined.accountId = previousAccountId)
        (fun s known => ⟨(known joined rfl).1, (known joined rfl).2 previousAccountId rfl⟩) (.known fun account => ?_)
      exact triple_answer (by rw [account]; exact named)

end Workers

theorem triple_snapshot : Triple (setting c kind) (Quiet c) pre snapshot fun _ _ => True := by
  refine .needs (fun _ => True) (fun _ _ => True.intro) ?_
  exact .seq (order_quiet c kind) triple_readCanonical lasts_true fun _ =>
    .pure (order_quiet c kind) fun _ _ => True.intro

/-! ### Calls -/

/-- What a call that returns has shown. -/
def Post (kind : Kind) (returned : Returned) (s : Shared) : Prop :=
  match returned with
  | .snapshot _ => True
  | .grant grant => Granted grant s
  | .delivery d => Delivered d s ∧
      ∀ broker params, kind = .handleWorkerRefresh broker params → workerParams params = some d.chatgptAccountId

/-- What holds when a call returns. -/
def Ends (kind : Kind) (returned : Returned) (s : Shared) : Prop :=
  Post kind returned s ∧ ∀ d broker, returned = .delivery d → kind.workerBroker = some broker → Handed broker d s

theorem Post.lasts (kind : Kind) (returned : Returned) : Lasts Grows (Post kind returned) := by
  intro s s' grows post
  cases returned with
  | snapshot snapshot => exact True.intro
  | grant grant => exact Granted.lasts grant s s' grows post
  | delivery d => exact ⟨Delivered.lasts d s s' grows post.1, post.2⟩

theorem Ends.grant {grant : Grant} {s : Shared} (granted : Granted grant s) : Ends kind (.grant grant) s := by
  refine ⟨granted, ?_⟩
  rintro d broker ⟨⟩

theorem Ends.snapshot {snapshot : Snapshot} {s : Shared} : Ends kind (.snapshot snapshot) s := by
  refine ⟨True.intro, ?_⟩
  rintro d broker ⟨⟩

theorem Kind.triple (kind : Kind) : Triple (setting c kind) Grows (Undispatched c) kind.program (Ends kind) := by
  have order := order_grows c kind
  -- the value of a method is wrapped behind it
  have wraps {A : Type} {m : Method A} {post : A → Shared → Prop} {f : A → Returned}
      (h : Triple (setting c kind) (Quiet c) (Undispatched c) m post) (weaker : ∀ a s, post a s → Ends kind (f a) s) :
      Triple (setting c kind) Grows (Undispatched c) (m >>= fun a => pure (f a)) (Ends kind) :=
    h.andThen order Quiet.toGrows fun a => .pure order (weaker a)
  cases kind with
  | installCredential credential => exact wraps (triple_installCredential credential) fun _ _ _ => .snapshot
  | recoverRefreshReservation request => exact wraps (triple_recoverRefreshReservation request) fun _ _ _ => .snapshot
  | snapshot => exact wraps triple_snapshot fun _ _ _ => .snapshot
  | getGrant broker options => exact wraps (triple_getGrant broker options) fun _ _ => .grant
  | refreshGrant broker options => exact wraps (triple_refreshGrant broker options) fun _ _ => .grant
  | workerLoginParams broker options =>
    refine wraps (triple_workerLoginParams broker options) fun d s handed => ⟨⟨handed.delivered, ?_⟩, ?_⟩
    · rintro _ _ ⟨⟩
    · rintro _ _ ⟨⟩ ⟨⟩
      exact handed
  | handleWorkerRefresh broker params =>
    refine wraps (triple_handleWorkerRefresh broker params) fun d s answered => ⟨⟨answered.1.delivered, ?_⟩, ?_⟩
    · rintro _ _ ⟨⟩
      exact answered.2
    · rintro _ _ ⟨⟩ ⟨⟩
      exact answered.1
  | refreshOnce task broker expected =>
    exact (triple_refreshOnce broker expected).andThen order (fun _ _ => id) fun _ => .pure order fun _ => .grant

end PortableCodex.AuthBroker
