import PortableCodex.HeadAnchor.HeadAnchor
import PortableCodex.ProviderState.Capacity

/-!
The anchor and the provider agree on what an advance is.

`headAnchorLaws` has two halves. Whatever a provider of version 2 proposes passes the anchor's checks
and the constraints of the table, and is read back as it was proposed. And whatever is asked of an
anchor, by anyone, its row changes only from the head that was expected, by one append or one rotation.
-/

namespace PortableCodex.HeadAnchor

open Js ProviderState

/-! ### Formats -/

theorem byteLength_eq_length {s : JsString} (ascii : ∀ u ∈ s, u.toNat < 0x80) : byteLength s = s.length := by
  induction s with
  | nil => rfl
  | cons u s ih =>
      rw [byteLength_ascii (ascii u List.mem_cons_self), ih fun v inside => ascii v (List.mem_cons_of_mem _ inside),
        List.length_cons, Nat.add_comm]

theorem isLowerHex_ascii {u : UInt16} (h : isLowerHex u = true) : u.toNat < 0x80 := by
  simp only [isLowerHex, isDigit, decide_eq_true_eq] at h
  omega

theorem isOpaqueUnit_ascii {u : UInt16} (h : isOpaqueUnit u = true) : u.toNat < 0x80 := by
  simp only [isOpaqueUnit, isAlphanumeric, isDigit, decide_eq_true_eq] at h
  rcases h with letter | rfl | rfl | rfl | rfl
  · omega
  all_goals decide

/-- A checksum passes the format constraint. -/
theorem checksumFormat (checksum : Checksum) : ChecksumFormat checksum.val := by
  obtain ⟨length, units⟩ := checksum.property
  constructor
  · rw [byteLength_eq_length fun u inside => isLowerHex_ascii (units u inside), length]
  · exact List.all_eq_true.mpr units

/-- An opaque id passes the format constraint. -/
theorem idFormat (id : OpaqueId) : IdFormat id.val := by
  obtain ⟨_ | ⟨u, rest⟩, valid⟩ := id
  · exact valid.elim
  · obtain ⟨first, short, units⟩ := valid
    have all : ∀ v ∈ u :: rest, isOpaqueUnit v = true := by
      intro v inside
      rcases List.mem_cons.mp inside with rfl | later
      · simp only [isOpaqueUnit, first, true_or, decide_true]
      · exact units v later
    have length := byteLength_eq_length fun v inside => isOpaqueUnit_ascii (all v inside)
    refine ⟨?_, ?_, first, List.all_eq_true.mpr all⟩
    · rw [length, List.length_cons]
      omega
    · rw [length, List.length_cons]
      omega

/-! ### Rows of heads -/

theorem nullableJson_map {P : JsString → Prop} (text : Option { s : JsString // P s }) :
    nullableJson JsValue.string (text.map (·.val)) = nullableJson textJson text := by
  cases text <;> rfl

/-- A head of version 2 that was advanced passes the constraints of the table. -/
theorem headValues_checked {head : LedgerHead} (version : head.contractVersion = .v2)
    (advanced : 1 ≤ head.anchorRevision.val) (identity : Identity) :
    (headValues head).Checked identity := by
  have bounded {P : Nat → Prop} (n : { n : Nat // P n }) {limit : Nat} (h : ∀ n, P n → n < limit + 1) :
      n.val ≤ limit := Nat.lt_succ_iff.mp (h n.val n.property)
  have formats (text : Option Checksum) :
      (text.map (·.val)).all (fun checksum => ChecksumFormat checksum) = true := by
    cases text with
    | none => rfl
    | some checksum => exact decide_eq_true (checksumFormat checksum)
  have present {text : Option Checksum} (h : text ≠ none) : text.map (·.val) ≠ none :=
    fun gone => h (Option.map_eq_none_iff.mp gone)
  have last (h : head.lastChecksum ≠ none) : (headValues head).ChecksumFormats := by
    refine ⟨formats _, formats _, ?_⟩
    obtain ⟨checksum, found⟩ := Option.ne_none_iff_exists'.mp h
    show (head.lastChecksum.map _).any _ = true
    rw [found]
    exact decide_eq_true (checksumFormat checksum)
  have uint64 : (headValues head).Uint64FieldsBounded :=
    ⟨advanced, bounded head.anchorRevision fun _ h => h, bounded head.generation fun _ h => h,
      bounded head.stateRevision fun _ h => h, bounded head.checkpointStateRevision fun _ h => h⟩
  have counts : (headValues head).CountsBounded :=
    ⟨head.checkpointFrameCount.property, head.checkpointBytes.property, head.frameCount.property,
      head.ledgerBytes.property⟩
  obtain ⟨ordered, sum, frames, shape⟩ := head.consistent
  have topology : (headValues head).RevisionTopology := by
    constructor
    · show head.anchorRevision.val = head.stateRevision.val + head.generation.val
      omega
    · show head.stateRevision.val = head.checkpointStateRevision.val + head.frameCount.val
      omega
  have supported : (headValues head).contractVersion = 2 := by
    show versionNumber head.contractVersion = 2
    rw [version]
    rfl
  suffices h : (headValues head).ChecksumFormats ∧ (headValues head).CheckpointShape ∧
      (headValues head).ActiveShape from
    ⟨idFormat _, idFormat _, supported, uint64, topology, counts, h.1, h.2.1, h.2.2⟩
  by_cases first : head.generation.val = 0
  · have later : head.stateRevision.val ≠ 0 := by omega
    rw [if_pos first, if_neg later] at shape
    obtain ⟨-, ⟨base, revision, count, checkpoint, bytes⟩, someFrames, checksum, someBytes⟩ := shape
    refine ⟨last checksum, .inl ⟨first, ?_, revision, count, ?_, bytes⟩,
      .inr ⟨⟨someFrames, head.frameCount.property⟩, someBytes, head.ledgerBytes.property⟩⟩
    · show head.baseHeadChecksum.map _ = none
      rw [base, Option.map_none]
    · show head.checkpointChecksum.map _ = none
      rw [checkpoint, Option.map_none]
  · rw [if_neg first] at shape
    obtain ⟨base, count, checkpoint, bytes, checksum, active⟩ := shape
    refine ⟨last checksum, .inr ⟨Nat.pos_of_ne_zero first, present base, present checkpoint,
      ⟨count, head.checkpointFrameCount.property⟩, bytes, head.checkpointBytes.property⟩, ?_⟩
    by_cases noFrames : head.frameCount.val = 0
    · rw [if_pos noFrames] at active
      refine .inl ⟨noFrames, Nat.pos_of_ne_zero first, active.1, present checksum, ?_⟩
      show head.lastChecksum.map _ = head.checkpointChecksum.map _
      rw [active.2]
    · rw [if_neg noFrames] at active
      exact .inr ⟨⟨Nat.pos_of_ne_zero noFrames, head.frameCount.property⟩, active, head.ledgerBytes.property⟩

theorem canonicalStoredNumber_decimal {n maximum : Nat} (within : n ≤ maximum)
    (safe : maximum ≤ maxSafeInteger) : canonicalStoredNumber (.string (decimal n)) maximum = some n := by
  rw [canonicalStoredNumber, digitsValue_decimal, if_pos ⟨isDecimal_decimal n, within, within.trans safe⟩]

/-- The row of a head is read back as the head. -/
theorem normalizeHeadRow_headValues {head : LedgerHead} (version : head.contractVersion = .v2)
    (advanced : head ≠ genesisHead) (identity : Identity) :
    normalizeHeadRow ((headValues head).json identity) identity = some head := by
  have count := canonicalStoredNumber_decimal head.checkpointFrameCount.property (by decide)
  have bytes := canonicalStoredNumber_decimal head.checkpointBytes.property le_rfl
  have frames := canonicalStoredNumber_decimal head.frameCount.property (by decide)
  have ledger := canonicalStoredNumber_decimal head.ledgerBytes.property (by decide)
  have fields := canonicalLedgerHead_reads .held head
  have number : (JsValue.number (ofNat (versionNumber head.contractVersion))) = head.contractVersion.json := by
    cases head.contractVersion <;> rfl
  unfold normalizeHeadRow HeadRow.json
  refine read_then (@exactDataFields_record .held _ _ rfl (by decide)) ?_
  dsimp only [List.map_cons, List.map_nil, Form.of]
  refine read_then (canonicalOpaqueId_reads .held identity.providerId) ?_
  refine read_then (canonicalOpaqueId_reads .held identity.anchorId) ?_
  refine read_then (ensure_pos ⟨rfl, rfl⟩) ?_
  refine read_then count ?_
  refine read_then bytes ?_
  refine read_then frames ?_
  refine read_then ledger ?_
  refine read_then ?_ (read_then (ensure_pos ⟨version, advanced⟩) rfl)
  rw [← fields]
  simp only [headValues, nullableJson_map, number]
  rfl

/-! ### Requests -/

/-- What an accepted pair of heads comes to. -/
structure Steps (expectedHead nextHead : LedgerHead) : Prop where
  anchorRevision : nextHead.anchorRevision.val = expectedHead.anchorRevision.val + 1
  counted : nextHead.generation = expectedHead.generation ∧
      nextHead.stateRevision.val = expectedHead.stateRevision.val + 1 ∨
    nextHead.generation.val = expectedHead.generation.val + 1 ∧
      nextHead.stateRevision = expectedHead.stateRevision

theorem Steps.advanced {expectedHead nextHead : LedgerHead} (h : Steps expectedHead nextHead) :
    1 ≤ nextHead.anchorRevision.val := by
  rw [h.anchorRevision]
  exact Nat.le_add_left _ _

theorem ne_genesisHead {head : LedgerHead} (advanced : 1 ≤ head.anchorRevision.val) : head ≠ genesisHead := by
  rintro rfl
  exact absurd advanced (by decide)

/-- A request that passes the checks of `compareAndAdvance`. -/
structure Accepted (expectedHead nextHead : LedgerHead) : Prop where
  expectedVersion : expectedHead.contractVersion = .v2
  nextVersion : nextHead.contractVersion = .v2
  proposed : isNormalAppend expectedHead nextHead ∨ isPureRotation expectedHead nextHead

theorem Accepted.steps {expectedHead nextHead : LedgerHead} (h : Accepted expectedHead nextHead) :
    Steps expectedHead nextHead := by
  rcases h.proposed with ⟨-, anchor, generation, revision, -⟩ | ⟨-, anchor, generation, revision, -⟩
  · exact ⟨anchor, .inl ⟨generation, revision⟩⟩
  · exact ⟨anchor, .inr ⟨generation, revision⟩⟩

theorem readAdvance_eq_some {advanceArgs : List JsValue} {expectedHead nextHead : LedgerHead}
    (h : readAdvance advanceArgs = some (expectedHead, nextHead)) : Accepted expectedHead nextHead := by
  unfold readAdvance at h
  split at h
  · obtain ⟨fields, -, h⟩ := Option.bind_eq_some_iff.mp h
    split at h
    · obtain ⟨expected, -, h⟩ := Option.bind_eq_some_iff.mp h
      obtain ⟨next, -, h⟩ := Option.bind_eq_some_iff.mp h
      obtain ⟨_, checked, same⟩ := Option.bind_eq_some_iff.mp h
      cases same
      obtain ⟨expectedVersion, nextVersion, proposed⟩ := ensure_eq_some_iff.mp checked
      exact ⟨expectedVersion, nextVersion, proposed⟩
    · cases h
  · cases h

/-- The request of a proposal. -/
def advanceJson (expectedHead nextHead : LedgerHead) : JsValue :=
  record advanceKeys [expectedHead.json, nextHead.json]

theorem readAdvance_json {expectedHead nextHead : LedgerHead} (h : Accepted expectedHead nextHead) :
    readAdvance [advanceJson expectedHead nextHead] = some (expectedHead, nextHead) := by
  unfold readAdvance
  refine read_then (@exactDataFields_record .held _ _ rfl (by decide)) ?_
  refine read_then (canonicalLedgerHead_reads .held expectedHead) ?_
  refine read_then (canonicalLedgerHead_reads .held nextHead) ?_
  exact read_then (ensure_pos ⟨h.expectedVersion, h.nextVersion, h.proposed⟩) rfl

/-! ### The table -/

/-- The table keeps a head: its row, or no row for the genesis head. -/
def Keeps (table : Table) (identity : Identity) (head : LedgerHead) : Prop :=
  table identity = if head = genesisHead then none else some (headValues head)

theorem Keeps.read {table : Table} {identity : Identity} {head : LedgerHead} (h : Keeps table identity head)
    (version : head.contractVersion = .v2) : readDurableHead table identity = .ok head := by
  unfold readDurableHead
  rw [h]
  by_cases genesis : head = genesisHead
  · rw [if_pos genesis, genesis]
  · rw [if_neg genesis]
    dsimp only
    rw [normalizeHeadRow_headValues version genesis]
    rfl

/-- An advanced head was kept, and is kept now. -/
theorem keeps_update (table : Table) (identity : Identity) {head : LedgerHead} (advanced : head ≠ genesisHead) :
    Keeps (Function.update table identity (some (headValues head))) identity head := by
  rw [Keeps, Function.update_self, if_neg advanced]

section Advancing

variable {table : Table} {identity : Identity} {expectedHead nextHead : LedgerHead}

theorem write_eq (accepted : Accepted expectedHead nextHead) :
    table.write identity (headValues nextHead) = .ok {
      table := Function.update table identity (some (headValues nextHead))
      returned := some (headValues nextHead) } :=
  if_pos (headValues_checked accepted.nextVersion accepted.steps.advanced identity)

/-- An accepted request advances a table that keeps the expected head. -/
theorem compareAndAdvanceDurableHead_of_keeps (accepted : Accepted expectedHead nextHead)
    (keeps : Keeps table identity expectedHead) :
    compareAndAdvanceDurableHead table identity expectedHead nextHead =
      .ok (Function.update table identity (some (headValues nextHead)), true) := by
  have readBack := normalizeHeadRow_headValues accepted.nextVersion (ne_genesisHead accepted.steps.advanced)
    identity
  have written := @write_eq table identity _ _ accepted
  unfold compareAndAdvanceDurableHead
  rw [Keeps] at keeps
  by_cases genesis : expectedHead = genesisHead
  · rw [if_pos genesis] at keeps ⊢
    simp only [insertQuery, keeps, written, readBack, orFail, ensure_pos, bind, Except.bind]
  · rw [if_neg genesis] at keeps ⊢
    simp only [updateQuery, keeps, if_true, written, readBack, orFail, ensure_pos, bind, Except.bind]

/-- An accepted request leaves any other table as it was. -/
theorem compareAndAdvanceDurableHead_of_not_keeps (keeps : ¬ Keeps table identity expectedHead) :
    compareAndAdvanceDurableHead table identity expectedHead nextHead = .ok (table, false) := by
  unfold compareAndAdvanceDurableHead
  rw [Keeps] at keeps
  by_cases genesis : expectedHead = genesisHead
  · rw [if_pos genesis] at keeps ⊢
    obtain ⟨row, found⟩ := Option.ne_none_iff_exists'.mp keeps
    simp only [insertQuery, found, bind, Except.bind]
  · rw [if_neg genesis] at keeps ⊢
    simp only [updateQuery, if_neg keeps, bind, Except.bind]

end Advancing

/-! ### Calls -/

/-- The row of an identity has changed from one head to another by an accepted request. -/
structure Changes (before after : Table) (identity : Identity) (expectedHead nextHead : LedgerHead) : Prop where
  expected : readDurableHead before identity = .ok expectedHead
  stored : readDurableHead after identity = .ok nextHead
  others : ∀ other, other ≠ identity → after other = before other
  anchorRevision : nextHead.anchorRevision.val = expectedHead.anchorRevision.val + 1
  counted : nextHead.generation = expectedHead.generation ∧
      nextHead.stateRevision.val = expectedHead.stateRevision.val + 1 ∨
    nextHead.generation.val = expectedHead.generation.val + 1 ∧
      nextHead.stateRevision = expectedHead.stateRevision

/-- A call leaves the table as it was, or changes the row of its identity from the head it expects. -/
theorem after_cases (table : Table) (call : Call) :
    table.after call = table ∨ ∃ expectedHead nextHead,
      readAdvance call.advanceArgs = some (expectedHead, nextHead) ∧
        Keeps table call.identity expectedHead ∧
        table.after call = Function.update table call.identity (some (headValues nextHead)) := by
  unfold Table.after compareAndAdvance
  cases request : readAdvance call.advanceArgs with
  | none => exact .inl rfl
  | some heads =>
      obtain ⟨expectedHead, nextHead⟩ := heads
      dsimp only [orFail, bind, Except.bind]
      have accepted := readAdvance_eq_some request
      by_cases keeps : Keeps table call.identity expectedHead
      · rw [compareAndAdvanceDurableHead_of_keeps accepted keeps]
        cases call.committed with
        | false => exact .inl rfl
        | true => exact .inr ⟨expectedHead, nextHead, rfl, keeps, rfl⟩
      · rw [compareAndAdvanceDurableHead_of_not_keeps keeps]
        left
        cases call.committed <;> rfl

/-- A row of a table that calls have made. -/
structure Stored (table : Table) (identity : Identity) (row : HeadRow) (head : LedgerHead) : Prop where
  row_eq : row = headValues head
  contractVersion : head.contractVersion = .v2
  advanced : head ≠ genesisHead
  checked : row.Checked identity
  read : readDurableHead table identity = .ok head

/-- Every row is that of a head other than genesis. -/
theorem tableOf_stored (calls : List Call) {identity : Identity} {row : HeadRow}
    (h : tableOf calls identity = some row) : ∃ head, Stored (tableOf calls) identity row head := by
  induction calls using List.reverseRecOn generalizing row with
  | nil => cases h
  | append_singleton calls call ih =>
      have step : tableOf (calls ++ [call]) = (tableOf calls).after call := by
        rw [tableOf, List.foldl_append, List.foldl_cons, List.foldl_nil, tableOf]
      rw [step] at h ⊢
      rcases after_cases (tableOf calls) call with same | ⟨expectedHead, nextHead, request, keeps, next⟩
      · rw [same] at h ⊢
        exact ih h
      · rw [next] at h ⊢
        have accepted := readAdvance_eq_some request
        by_cases here : identity = call.identity
        · subst here
          rw [Function.update_self, Option.some.injEq] at h
          have advanced := ne_genesisHead accepted.steps.advanced
          exact ⟨nextHead, h.symm, accepted.nextVersion, advanced,
            h ▸ headValues_checked accepted.nextVersion accepted.steps.advanced _,
            (keeps_update _ _ advanced).read accepted.nextVersion⟩
        · rw [Function.update_of_ne here] at h
          obtain ⟨head, stored⟩ := ih h
          refine ⟨head, stored.row_eq, stored.contractVersion, stored.advanced, stored.checked, ?_⟩
          rw [← stored.read, readDurableHead, readDurableHead, Function.update_of_ne here]

/-- A changed row was the expected head and is the next one. -/
theorem after_changes {table : Table} {call : Call} {identity : Identity}
    (changed : table.after call identity ≠ table identity) :
    ∃ expectedHead nextHead, readAdvance call.advanceArgs = some (expectedHead, nextHead) ∧
      Changes table (table.after call) identity expectedHead nextHead := by
  rcases after_cases table call with same | ⟨expectedHead, nextHead, request, keeps, next⟩
  · rw [same] at changed
    exact absurd rfl changed
  · have accepted := readAdvance_eq_some request
    have here : identity = call.identity := by
      by_contra other
      rw [next, Function.update_of_ne other] at changed
      exact changed rfl
    subst here
    refine ⟨expectedHead, nextHead, request, keeps.read accepted.expectedVersion, ?_, ?_,
      accepted.steps.anchorRevision, accepted.steps.counted⟩
    · rw [next]
      exact (keeps_update _ _ (ne_genesisHead accepted.steps.advanced)).read accepted.nextVersion
    · intro other ne
      rw [next, Function.update_of_ne ne]

/-! ### Proposals -/

/-- An advance that the anchor, the table and its reader admit. -/
structure Admitted (identity : Identity) (before after : LedgerHead) : Prop where
  proposed : isNormalAppend before after ∨ isPureRotation before after
  checked : (headValues after).Checked identity
  readBack : normalizeHeadRow ((headValues after).json identity) identity = some after
  /-- From a table that keeps the current head, the call stores the next one. -/
  advances : ∀ table, Keeps table identity before →
    compareAndAdvance table identity [advanceJson before after] =
      .ok (Function.update table identity (some (headValues after)), true)

theorem isNormalAppend_of_appended {before after : LedgerHead} (h : Appended before after) :
    isNormalAppend before after :=
  ⟨h.contractVersion, h.anchorRevision, h.generation, h.stateRevision, h.baseHeadChecksum,
    h.checkpointStateRevision, h.checkpointFrameCount, h.checkpointChecksum, h.checkpointBytes, h.frameCount,
    after.frameCount.property, h.lastChecksum, h.ledgerBytes⟩

theorem isPureRotation_of_rotated {before after : LedgerHead} (h : Rotated before after) :
    isPureRotation before after := by
  have later : after.generation.val ≠ 0 := by
    rw [h.generation]
    exact Nat.succ_ne_zero _
  obtain ⟨-, count, checkpoint, bytes, -⟩ := LedgerHead.laterGeneration later
  have hasBytes : before.ledgerBytes.val ≠ 0 := fun none => h.hasFrames (before.ledgerBytes_eq_zero_iff.mp none)
  exact ⟨h.contractVersion, h.anchorRevision, h.generation, h.stateRevision, h.hasFrames, hasBytes,
    h.checkpointStateRevision, count, after.checkpointFrameCount.property, checkpoint, bytes,
    after.checkpointBytes.property, h.frameCount, h.lastChecksum, h.ledgerBytes, h.baseHeadChecksum⟩

theorem admitted_of_accepted {identity : Identity} {before after : LedgerHead} (accepted : Accepted before after) :
    Admitted identity before after where
  proposed := accepted.proposed
  checked := headValues_checked accepted.nextVersion accepted.steps.advanced identity
  readBack := normalizeHeadRow_headValues accepted.nextVersion (ne_genesisHead accepted.steps.advanced) identity
  advances table keeps := by
    rw [compareAndAdvance, readAdvance_json accepted]
    exact compareAndAdvanceDurableHead_of_keeps accepted keeps

/-- Everything a reachable provider proposes is accepted. -/
theorem accepted_of_advances {policy : RotationPolicy} {cache before after : GenerationCache}
    {event : DeltaEvent} (reachable : ReachableCache .v2 cache)
    (h : (before, after) ∈ advances policy cache event) : Accepted before.head after.head := by
  obtain ⟨expectedVersion, nextVersion⟩ := advances_version h
  refine ⟨expectedVersion.trans reachable.contractVersion, nextVersion.trans reachable.contractVersion, ?_⟩
  rcases advances_cases h with appended | rotated
  · exact .inl (isNormalAppend_of_appended appended)
  · exact .inr (isPureRotation_of_rotated rotated)

/-- The anchor admits what a provider of version 2 proposes, and its rows change in no other way than
by appends and rotations of the expected head. -/
theorem headAnchorLaws :
    (∀ policy cache event before after, ReachableCache .v2 cache →
      (before, after) ∈ advances policy cache event →
        ∀ identity, Admitted identity before.head after.head) ∧
    ∀ calls identity,
      (∀ row, tableOf calls identity = some row → ∃ head, Stored (tableOf calls) identity row head) ∧
      ∀ call, tableOf (calls ++ [call]) identity ≠ tableOf calls identity →
        ∃ expectedHead nextHead, readAdvance call.advanceArgs = some (expectedHead, nextHead) ∧
          Changes (tableOf calls) (tableOf (calls ++ [call])) identity expectedHead nextHead := by
  refine ⟨fun policy cache event before after reachable proposal identity =>
    admitted_of_accepted (accepted_of_advances reachable proposal), fun calls identity =>
    ⟨fun row found => tableOf_stored calls found, fun call changed => ?_⟩⟩
  have step : tableOf (calls ++ [call]) = (tableOf calls).after call := by
    rw [tableOf, List.foldl_append, List.foldl_cons, List.foldl_nil, tableOf]
  rw [step] at changed ⊢
  exact after_changes changed

/-! ### A first append and its rotation -/

/-- The prepare of a first storage as an event. -/
def firstEvent : DeltaEvent :=
  let frame := firstPrepared .v2
  .prepared frame.kind frame.operationId frame.request frame.storageId frame.storageStateBefore

def firstPolicy : RotationPolicy := { activeFrameCountWatermark := 1, activeLedgerBytesWatermark := 1 }

def firstIdentity : Identity where
  providerId := ⟨js "provider", by decide⟩
  anchorId := ⟨js "anchor", by decide⟩

theorem firstEvent_encoded : encodeDeltaEvent (genesisCache .v2).head firstEvent =
    some (encoding (DeltaFrame.prepared (firstPrepared .v2))) :=
  openingEvent_encoded .v2

theorem firstEvent_appended : ∃ nextHead,
    appendedHead (genesisCache .v2).head (encoding (DeltaFrame.prepared (firstPrepared .v2))) = some nextHead := by
  have fits := (encodeDeltaEvent_length firstEvent_encoded).2
  have room : CanAdvance (genesisCache .v2).head := by
    show 0 + 1 < 2 ^ 64
    omega
  have noBytes : (genesisCache .v2).head.ledgerBytes.val = 0 := rfl
  apply appendedHead_isSome firstEvent_encoded room
  rw [noBytes, Nat.zero_add]
  exact fits

/-- The empty ledger needs no rotation before its first event. -/
theorem firstEvent_direct : rotatesFirst firstPolicy (genesisCache .v2) firstEvent = some false := by
  have fits := (encodeDeltaEvent_length firstEvent_encoded).2
  have empty : (genesisCache .v2).head.frameCount.val = 0 := rfl
  have noBytes : (genesisCache .v2).head.ledgerBytes.val = 0 := rfl
  rw [rotatesFirst, if_neg (by rw [empty]; decide), firstEvent_encoded]
  refine congrArg some ?_
  rw [eventRequiresRotation, if_neg, if_pos empty]
  rintro (full | full)
  · rw [empty] at full
    exact absurd full (by decide)
  · rw [noBytes] at full
    omega

theorem genesis_loaded : Loaded (genesisCache .v2) := rfl

theorem firstEvent_next : ∃ after, appendDeltaEvent (genesisCache .v2) firstEvent = some after ∧
    SizedBy 1 after.state := by
  obtain ⟨nextHead, head⟩ := firstEvent_appended
  have applied := firstPending_applied .v2 (deltaChecksum (.prepared (firstPrepared .v2)))
  have empty : SizedBy 0 (genesisCache .v2).state := ⟨le_rfl, le_rfl⟩
  exact ⟨_, appendDeltaEvent_of_applied genesis_loaded firstEvent_encoded head rfl applied, empty.applied applied⟩

/-- The first append is proposed, and the rotation that the next event asks for. -/
theorem firstEvents_proposed : ∃ after rotated,
    (genesisCache .v2, after) ∈ advances firstPolicy (genesisCache .v2) firstEvent ∧ ReachableCache .v2 after ∧
      (after, rotated) ∈ advances firstPolicy after firstEvent ∧ isPureRotation after.head rotated.head := by
  obtain ⟨after, appended, sized⟩ := firstEvent_next
  have counted := appendDeltaEvent_appended appended
  have proposal : (genesisCache .v2, after) ∈ advances firstPolicy (genesisCache .v2) firstEvent := by
    rw [advances, firstEvent_direct]
    show (genesisCache .v2, after) ∈ appendAdvance (genesisCache .v2) firstEvent
    rw [appendAdvance, appended]
    exact List.mem_singleton_self _
  have reachable : ReachableCache .v2 after := .advanced .genesis proposal
  have backed := reachable.backed
  have frames : after.head.frameCount.val = 1 := counted.frameCount
  have anchor : after.head.anchorRevision.val = 1 := counted.anchorRevision
  have state : after.head.stateRevision.val = 1 := counted.stateRevision
  have advance : CanAdvance after.head := by
    unfold CanAdvance
    omega
  have left := not_exhausted_of_sized advance backed.reached.invariant.keyed sized (by decide)
  obtain ⟨rotated, rotates⟩ := backed.rotates left
  have place : after.head.frameCount.val < maxFrameCount := by
    rw [frames]
    decide
  obtain ⟨preview, encodes⟩ := encodeDeltaEvent_isSome firstEvent place (by omega)
  have asked : rotatesFirst firstPolicy after firstEvent = some true := by
    rw [rotatesFirst, if_neg (by rw [frames]; decide), encodes]
    refine congrArg some ?_
    rw [eventRequiresRotation]
    split
    · rfl
    · rw [if_neg (by omega), frames]
      rfl
  refine ⟨after, rotated, proposal, reachable, ?_, ?_⟩
  · rw [advances, asked]
    dsimp only
    rw [rotates]
    exact List.mem_cons_self
  · exact isPureRotation_of_rotated (rotateGeneration_rotated (by omega) rotates)

/-- A call that asks the anchor for an advance, and commits. -/
def committedCall (before after : LedgerHead) : Call where
  identity := firstIdentity
  advanceArgs := [advanceJson before after]
  committed := true

theorem Admitted.after {before after : LedgerHead} (admitted : Admitted firstIdentity before after) {table : Table}
    (keeps : Keeps table firstIdentity before) : table.after (committedCall before after) =
      Function.update table firstIdentity (some (headValues after)) := by
  have advanced := admitted.advances table keeps
  unfold Table.after committedCall
  dsimp only
  rw [advanced]
  rfl

/-- The first append and the rotation behind it reach the table, and the second call changes its row. -/
theorem headAnchorLaws_rotated : ∃ first second : LedgerHead,
    Admitted firstIdentity (genesisCache .v2).head first ∧ Admitted firstIdentity first second ∧
      isPureRotation first second ∧
      let calls := [committedCall (genesisCache .v2).head first]
      tableOf calls firstIdentity = some (headValues first) ∧
      ∃ expectedHead nextHead, Changes (tableOf calls) (tableOf (calls ++ [committedCall first second])) firstIdentity
        expectedHead nextHead := by
  obtain ⟨after, rotated, appends, reachable, rotates, pure⟩ := firstEvents_proposed
  have first := headAnchorLaws.1 firstPolicy _ firstEvent _ after .genesis appends firstIdentity
  have second := headAnchorLaws.1 firstPolicy _ firstEvent _ rotated reachable rotates firstIdentity
  have keeps : Keeps (tableOf []) firstIdentity (genesisCache .v2).head := (if_pos rfl).symm
  have accepted := accepted_of_advances .genesis appends
  have stored : tableOf [committedCall (genesisCache .v2).head after.head] =
      Function.update (tableOf []) firstIdentity (some (headValues after.head)) := first.after keeps
  refine ⟨after.head, rotated.head, first, second, pure, ?_, ?_⟩
  · rw [stored, Function.update_self]
  · have next := second.after (keeps_update (tableOf []) firstIdentity (ne_genesisHead accepted.steps.advanced))
    obtain ⟨expectedHead, nextHead, -, changes⟩ :=
      (headAnchorLaws.2 [committedCall (genesisCache .v2).head after.head] firstIdentity).2
        (committedCall after.head rotated.head) (by
      show (tableOf [committedCall (genesisCache .v2).head after.head]).after
        (committedCall after.head rotated.head) firstIdentity ≠ _
      rw [stored, next, Function.update_self, Function.update_self]
      intro same
      have revision : rotated.head.anchorRevision.val = after.head.anchorRevision.val :=
        congrArg HeadRow.anchorRevision (Option.some.inj same)
      have step : rotated.head.anchorRevision.val = after.head.anchorRevision.val + 1 := pure.2.1
      omega)
    exact ⟨expectedHead, nextHead, changes⟩

end PortableCodex.HeadAnchor
