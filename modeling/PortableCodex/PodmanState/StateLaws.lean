import PortableCodex.PodmanState.State
import PortableCodex.ProviderState.CanonicalLaws

/-!
What a transition leaves for the readers of an attempt.

`transition` compares its record with what the caller expects of the current one, and `readCurrent` compares
the records themselves, but only once the new one is visible. So a transition is harmless exactly when its
record passes the comparison of the reader (`transition_harmless_iff`); any other record of the next revision
and status is published and can never be read again.
-/

namespace PortableCodex.PodmanState

open Js ProviderState

/-! ### Reading -/

section Reading

variable {launchAttemptId : OpaqueId} {files : List (Option File)} {revision : Nat} {current : Option Record}
  {last : Record}

theorem readFiles_gap {found : Option Record}
    (read : readFiles launchAttemptId revision current true files = .ok found) :
    found = current ∧ ∀ file ∈ files, file = none := by
  induction files generalizing revision with
  | nil =>
    refine ⟨(Except.ok.inj read).symm, ?_⟩
    intro file inside
    cases inside
  | cons file files ih =>
    cases file with
    | none =>
      obtain ⟨same, rest⟩ := ih read
      refine ⟨same, ?_⟩
      intro file inside
      rcases List.mem_cons.mp inside with rfl | inside
      · rfl
      · exact rest file inside
    | some file =>
      unfold readFiles at read
      rw [if_pos (.inl rfl)] at read
      cases read

theorem readFiles_none {gap : Bool} (none : ∀ file ∈ files, file = none) :
    readFiles launchAttemptId revision current gap files = .ok current := by
  induction files generalizing revision gap with
  | nil => rfl
  | cons file files ih =>
    obtain rfl := none file List.mem_cons_self
    exact ih fun file inside => none file (List.mem_cons_of_mem _ inside)

theorem parseRecord_revision {file : File} {record : Record}
    (h : parseRecord launchAttemptId revision file = some record) : record.revision = revision := by
  unfold parseRecord at h
  split at h
  · split at h
    · rename_i fits
      obtain rfl := Option.some.inj h
      exact fits.2
    · cases h
  · cases h

/-- What the reader makes of a record after the last one. -/
def extended (launchAttemptId : OpaqueId) (last : Record) (file : File) : Except ErrorCode (Option Record) :=
  match parseRecord launchAttemptId (last.revision + 1) file with
  | none => .error .invalid
  | some record => if follows last record then .ok (some record) else .error .invalid

/-- The place after the last record is free, and a file there is read after it. -/
theorem readFiles_extend (read : readFiles launchAttemptId revision current false files = .ok (some last))
    (place : ∀ record, current = some record → record.revision + 1 = revision)
    (within : last.revision + 1 < revision + files.length) (small : last.revision < 4) (file : File) :
    revision ≤ last.revision + 1 ∧ files[last.revision + 1 - revision]? = some none ∧
      readFiles launchAttemptId revision current false (files.set (last.revision + 1 - revision) (some file)) =
        extended launchAttemptId last file := by
  induction files generalizing revision current with
  | nil =>
    have here := place last (Except.ok.inj read)
    rw [List.length_nil] at within
    omega
  | cons head files ih =>
    cases head with
    | none =>
      obtain ⟨same, rest⟩ := readFiles_gap read
      have here := place last same.symm
      rw [← here, Nat.sub_self]
      refine ⟨Nat.le_refl _, rfl, ?_⟩
      rw [List.set_cons_zero, ← same]
      unfold readFiles extended
      rw [if_neg]
      · cases parsed : parseRecord launchAttemptId (last.revision + 1) file with
        | none => rfl
        | some record =>
          dsimp only
          rw [Option.all_some]
          split
          · exact readFiles_none rest
          · rfl
      · rintro (never | late)
        · cases never
        · omega
    | some first =>
      unfold readFiles at read
      split at read
      · cases read
      · rename_i within'
        split at read
        · cases read
        · rename_i record parsed
          split at read
          · rename_i fits
            have next (other : Record) (same : some record = some other) : other.revision + 1 = revision + 1 := by
              obtain rfl := Option.some.inj same
              rw [parseRecord_revision parsed]
            rw [List.length_cons] at within
            obtain ⟨later, free, reads⟩ := ih read next (by omega)
            have index : last.revision + 1 - revision = (last.revision + 1 - (revision + 1)) + 1 := by omega
            refine ⟨Nat.le_of_succ_le later, ?_, ?_⟩
            · rw [index, List.getElem?_cons_succ]
              exact free
            · rw [index, List.set_cons_succ, ← reads]
              conv_lhs => unfold readFiles
              rw [if_neg within']
              simp only [parsed, fits, if_true]
          · cases read

end Reading

section Chains

variable {chain : Chain} {launchAttemptId : OpaqueId} {current : Record}

theorem map_update (chain : Chain) {place : Nat} (file : File) (within : place < 6) :
    (List.range 6).map (Function.update chain place (some file)) = ((List.range 6).map chain).set place (some file) := by
  apply List.ext_getElem?
  intro i
  rw [List.getElem?_set, List.getElem?_map, List.getElem?_map, List.length_map, List.length_range]
  by_cases same : place = i
  · subst same
    rw [if_pos rfl, if_pos within, List.getElem?_range within, Option.map_some, Function.update_self]
  · rw [if_neg same]
    by_cases inside : i < 6
    · rw [List.getElem?_range inside, Option.map_some, Option.map_some, Function.update_of_ne (Ne.symm same)]
    · rw [List.getElem?_eq_none (by rw [List.length_range]; exact Nat.le_of_not_lt inside)]
      rfl

theorem not_some (record : Record) (same : none = some record) : record.revision + 1 = 0 := by
  cases same

theorem readCurrent_free (read : readCurrent chain launchAttemptId = .ok (some current)) (small : current.revision < 4) :
    chain (current.revision + 1) = none := by
  obtain ⟨-, free, -⟩ := readFiles_extend read not_some (by simp; omega) small .other
  rw [Nat.sub_zero, List.getElem?_map, List.getElem?_range (by omega)] at free
  exact Option.some.inj free

/-- A record that is published after the current one. -/
theorem readCurrent_update (read : readCurrent chain launchAttemptId = .ok (some current))
    (small : current.revision < 4) {record : Record} (attempt : record.val.launchAttemptId = launchAttemptId)
    (next : record.revision = current.revision + 1) :
    readCurrent (Function.update chain record.revision (some (.record record))) launchAttemptId =
      if follows current record then .ok (some record) else .error .invalid := by
  obtain ⟨-, -, reads⟩ := readFiles_extend read not_some (by simp; omega) small (.record record)
  unfold readCurrent
  rw [next, map_update chain (.record record) (by omega)]
  rw [Nat.sub_zero] at reads
  have parsed : parseRecord launchAttemptId (current.revision + 1) (.record record) = some record :=
    if_pos ⟨attempt, next⟩
  rw [reads, extended, parsed]

end Chains

/-! ### Transitions -/

/-- The chain is as it was where the call is refused, and shows the old or the new record to the next reader. -/
def Harmless (chain : Chain) (input : TransitionRequest) (io : Io) : Prop :=
  ((transition io chain input).1 = .error .conflict ∨ (transition io chain input).1 = .error .invalid →
    (transition io chain input).2 = chain) ∧
  (readCurrent (transition io chain input).2 input.record.val.launchAttemptId =
      readCurrent chain input.record.val.launchAttemptId ∨
    readCurrent (transition io chain input).2 input.record.val.launchAttemptId = .ok (some input.record))

/-- A call in which every operation succeeds. -/
def Io.works : Io where
  opens := true
  reads := true
  write := .publishes
  rereads := true
  markerHeld := true
  closes := true

section Transitions

variable {chain : Chain} {input : TransitionRequest} {current : Record}

theorem Status.revision_le (status : Status) : status.revision ≤ 4 := by cases status <;> decide

theorem TransitionRequest.expected_lt (input : TransitionRequest) : input.expectedRevision < 4 := by
  have bound := Status.revision_le input.record.val.status
  have same := input.revision
  unfold Record.revision at same
  omega

/-- The record that the request expects, and the place after it. -/
theorem TransitionRequest.expects_spec (expects : input.expects current = true) :
    current.revision < 4 ∧ input.record.revision = current.revision + 1 := by
  unfold TransitionRequest.expects at expects
  rw [decide_eq_true_eq] at expects
  rw [input.revision, expects.1]
  exact ⟨input.expected_lt, rfl⟩

/-- The chain after a transition: as it was, or with the record that the request names after the current one. -/
theorem transition_chain (io : Io) (read : readCurrent chain input.record.val.launchAttemptId = .ok (some current)) :
    (transition io chain input).2 = chain ∨ input.expects current = true ∧ (transition io chain input).2 =
      Function.update chain input.record.revision (some (.record input.record)) := by
  have wrote (write : Write) : (writeExclusive write chain input.record).2 = chain ∨
      (writeExclusive write chain input.record).2 =
        Function.update chain input.record.revision (some (.record input.record)) := by
    unfold writeExclusive
    cases write with
    | fails => exact .inl rfl
    | publishes =>
      dsimp only
      split
      · exact .inl rfl
      · exact .inr rfl
    | failsAfterwards =>
      dsimp only
      split
      · exact .inl rfl
      · exact .inr rfl
  have advanced : (advance io chain input).2 = (writeExclusive io.write chain input.record).2 := by
    unfold advance
    rcases writeExclusive io.write chain input.record with ⟨code | created, after⟩
    · rfl
    · dsimp only
      split
      · split
        · rfl
        · rfl
        · split
          · rfl
          · split <;> rfl
      · rfl
  have inside : (inDirectory io chain input).2 = chain ∨ input.expects current = true ∧
      (inDirectory io chain input).2 = Function.update chain input.record.revision (some (.record input.record)) := by
    unfold inDirectory
    split
    · rw [read]
      dsimp only
      split
      · rename_i expects
        rw [advanced]
        exact (wrote io.write).imp_right fun same => ⟨expects, same⟩
      · split
        · exact .inl rfl
        · exact .inl rfl
    · exact .inl rfl
  unfold transition
  split
  · exact inside
  · exact .inl rfl

/-- The call has returned the record, or an operation has failed. -/
def Answers (input : TransitionRequest) (result : Except ErrorCode Record) : Prop :=
  result = .ok input.record ∨ result = .error .ioFailed

/-- A record that the reader accepts is the answer of `advance`, where no operation fails. -/
theorem advance_answers (io : Io) (free : chain input.record.revision = none)
    (after : readCurrent (Function.update chain input.record.revision (some (.record input.record)))
      input.record.val.launchAttemptId = .ok (some input.record)) : Answers input (advance io chain input).1 := by
  have unseen : ¬ chain input.record.revision ≠ none := not_not.mpr free
  unfold advance writeExclusive
  cases io.write with
  | fails => exact .inr rfl
  | publishes =>
    dsimp only
    rw [if_neg unseen]
    dsimp only
    split
    · rw [after]
      refine .inl ?_
      simp
    · exact .inr rfl
  | failsAfterwards =>
    dsimp only
    rw [if_neg unseen]
    exact .inr rfl

theorem inDirectory_answers (io : Io) (read : readCurrent chain input.record.val.launchAttemptId = .ok (some current))
    (expects : input.expects current = true) (advanced : Answers input (advance io chain input).1) :
    Answers input (inDirectory io chain input).1 := by
  unfold inDirectory
  split
  · rw [read]
    dsimp only
    rw [if_pos expects]
    exact advanced
  · exact .inr rfl

theorem Answers.ends {result : Except ErrorCode Record} (answers : Answers input result) (io : Io) :
    Answers input (io.ends result) := by
  unfold Io.ends
  split
  · rcases answers with rfl | rfl
    · dsimp only
      split
      · exact .inl rfl
      · exact .inr rfl
    · exact .inr rfl
  · exact .inr rfl

/-- A record that the reader accepts is the answer, wherever the call gets that far. -/
theorem transition_answers (io : Io) (read : readCurrent chain input.record.val.launchAttemptId = .ok (some current))
    (expects : input.expects current = true) (fits : follows current input.record = true) :
    Answers input (transition io chain input).1 := by
  obtain ⟨small, next⟩ := input.expects_spec expects
  have free : chain input.record.revision = none := by
    rw [next]
    exact readCurrent_free read small
  have after := readCurrent_update read small rfl next
  rw [if_pos fits] at after
  unfold transition
  split
  · exact (inDirectory_answers io read expects (advance_answers io free after)).ends io
  · exact .inr rfl

/-- So it is not refused. -/
theorem Answers.not_refused {result : Except ErrorCode Record} (answers : Answers input result) :
    ¬ (result = .error .conflict ∨ result = .error .invalid) := by
  rcases answers with rfl | rfl
  · rintro (⟨⟨⟩⟩ | ⟨⟨⟩⟩)
  · rintro (⟨⟨⟩⟩ | ⟨⟨⟩⟩)

theorem harmless_of_follows (io : Io)
    (read : readCurrent chain input.record.val.launchAttemptId = .ok (some current))
    (fits : input.expects current = true → follows current input.record = true) : Harmless chain input io := by
  constructor
  · intro refused
    rcases transition_chain io read with same | ⟨expects, -⟩
    · exact same
    · exact absurd refused (transition_answers io read expects (fits expects)).not_refused
  · rcases transition_chain io read with same | ⟨expects, published⟩
    · exact .inl (by rw [same])
    · right
      obtain ⟨small, next⟩ := input.expects_spec expects
      rw [published, readCurrent_update read small rfl next, if_pos (fits expects)]

/-- A record that the reader refuses is published, and ends the attempt for every reader. -/
theorem works_of_not_follows (read : readCurrent chain input.record.val.launchAttemptId = .ok (some current))
    (expects : input.expects current = true) (fits : follows current input.record ≠ true) :
    transition .works chain input =
        (.error .invalid, Function.update chain input.record.revision (some (.record input.record))) ∧
      readCurrent (Function.update chain input.record.revision (some (.record input.record)))
        input.record.val.launchAttemptId = .error .invalid := by
  obtain ⟨small, next⟩ := input.expects_spec expects
  have free : chain input.record.revision = none := by
    rw [next]
    exact readCurrent_free read small
  have after := readCurrent_update read small rfl next
  rw [if_neg fits] at after
  refine ⟨?_, after⟩
  simp [transition, inDirectory, advance, writeExclusive, Io.works, Io.ends, read, expects, free, after]

end Transitions

/-- A transition is harmless, whatever fails, exactly when its record passes the comparison of the reader. -/
theorem transition_harmless_iff (chain : Chain) (input : TransitionRequest) (current : Record)
    (read : readCurrent chain input.record.val.launchAttemptId = .ok (some current)) :
    (∀ io, Harmless chain input io) ↔ (input.expects current = true → follows current input.record = true) := by
  constructor
  · intro harmless expects
    by_contra fits
    obtain ⟨ran, unreadable⟩ := works_of_not_follows read expects fits
    rcases (harmless .works).2 with same | same
    · rw [ran, unreadable, read] at same
      cases same
    · rw [ran, unreadable] at same
      cases same
  · intro fits io
    exact harmless_of_follows io read fits

/-! ### An attempt -/

theorem attempt_isOpaqueId : IsOpaqueId (js "attempt") := by decide +kernel

theorem writer_isContainerName : IsContainerName (js "writer") := by decide +kernel

theorem digest_isSha256 (u : UInt16) (hex : isLowerHex u = true) : IsSha256 (List.replicate 64 u) := by
  refine ⟨List.length_replicate, ?_⟩
  intro v inside
  rw [List.eq_of_mem_replicate inside]
  exact hex

/-- The object of a record with the given texts; the rest is null. -/
def recordJson (digit containerId status : JsValue) (revision : Nat) (incarnation : JsValue) : JsValue :=
  record recordKeys [containerId, .string (js "writer"), .number (ofNat 1), .string (js "attempt"), incarnation, .null,
    digit, .number (ofNat revision), status, .null, .null, incarnation]

def preparingFields : Fields where
  status := .preparing
  requestSha256 := ⟨List.replicate 64 97, digest_isSha256 97 rfl⟩
  containerName := ⟨js "writer", writer_isContainerName⟩
  launchAttemptId := ⟨js "attempt", attempt_isOpaqueId⟩
  containerId := none
  processIncarnationId := none
  proofId := none
  stopOperationId := none
  stopProofId := none
  writerIncarnationId := none

def preparingRecord : Record := ⟨preparingFields, rfl, rfl, rfl, rfl, rfl, rfl⟩

/-- The attempt after its claim. -/
def claimed : Chain := Function.update (fun _ => none) 0 (some (.record preparingRecord))

/-- A request for `created` with the hash of another request, or of the same. -/
def createdRequest (digit : UInt16) : JsValue :=
  record [js "expectedRevision", js "expectedStatus", js "record"] [.number (ofNat 0), .string (js "preparing"),
    recordJson (.string (List.replicate 64 digit)) (.string (List.replicate 12 97)) (.string (js "created")) 1
      (.string (js "incarnation"))]

theorem readCurrent_claimed : readCurrent claimed preparingFields.launchAttemptId = .ok (some preparingRecord) := by
  decide +kernel

/-- The transitions of the claimed attempt: whether they fit, and whether the reader accepts their record. -/
def compared (value : JsValue) : Option (Bool × Bool × OpaqueId) :=
  (normalizeTransition value).map fun input =>
    (input.expects preparingRecord, follows preparingRecord input.record, input.record.val.launchAttemptId)

theorem compared_createdRequest :
    compared (createdRequest 97) = some (true, true, preparingFields.launchAttemptId) ∧
      compared (createdRequest 98) = some (true, false, preparingFields.launchAttemptId) := by decide +kernel

/-- A request with another hash makes the attempt unreadable. -/
theorem transition_unreadable : ¬ ∀ chain value input current, normalizeTransition value = some input →
    readCurrent chain input.record.val.launchAttemptId = .ok (some current) → ∀ io, Harmless chain input io := by
  intro harmless
  have both := compared_createdRequest.2
  unfold compared at both
  obtain ⟨input, normalized, same⟩ := Option.map_eq_some_iff.mp both
  obtain ⟨expects, rest⟩ := Prod.mk.inj same
  obtain ⟨fits, attempt⟩ := Prod.mk.inj rest
  have read : readCurrent claimed input.record.val.launchAttemptId = .ok (some preparingRecord) := by
    rw [attempt]
    exact readCurrent_claimed
  have differs : follows preparingRecord input.record ≠ true := by
    rw [fits]
    exact Bool.false_ne_true
  obtain ⟨ran, unreadable⟩ := works_of_not_follows read expects differs
  rcases (harmless claimed _ input preparingRecord normalized read .works).2 with old | new
  · rw [ran, unreadable, read] at old
    cases old
  · rw [ran, unreadable] at new
    cases new

theorem transition_harmless_created : ∃ input, normalizeTransition (createdRequest 97) = some input ∧
    ∀ io, Harmless claimed input io := by
  have both := compared_createdRequest.1
  unfold compared at both
  obtain ⟨input, normalized, same⟩ := Option.map_eq_some_iff.mp both
  obtain ⟨-, rest⟩ := Prod.mk.inj same
  obtain ⟨fits, attempt⟩ := Prod.mk.inj rest
  have read : readCurrent claimed input.record.val.launchAttemptId = .ok (some preparingRecord) := by
    rw [attempt]
    exact readCurrent_claimed
  exact ⟨input, normalized, (transition_harmless_iff claimed input preparingRecord read).mpr fun _ => fits⟩

end PortableCodex.PodmanState
