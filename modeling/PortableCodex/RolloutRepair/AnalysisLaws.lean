import PortableCodex.RolloutRepair.Analysis

/-!
What the analysis of a rollout keeps.

A file is its complete lines and a tail without line feed (`exists_lines`), and `analyzeBytes` reads
the two apart (`analyzeBytes_lines`). A rollout cut anywhere after its first record keeps the records
that lie whole before the cut: a record is the text of an object, and no proper beginning of such a
text is accepted by the decoder and by `JSON.parse` (`jsonValue_torn`).
-/

namespace PortableCodex.RolloutRepair

open Js ProviderState Contracts

/-! ### Lines -/

/-- Nothing, or bytes that end with a line feed. -/
def Terminated (bytes : Bytes) : Prop := bytes = [] ∨ ∃ before, bytes = before ++ [lineFeed]

theorem lineEnd_append {body tail : Bytes} (lines : Terminated body) (oneLine : lineFeed ∉ tail) :
    lineEnd (body ++ tail) = body.length := by
  have other : ∀ b ∈ tail.reverse, decide (b ≠ lineFeed) = true := by
    intro b member
    rw [decide_eq_true_eq]
    rintro rfl
    exact oneLine (List.mem_reverse.mp member)
  unfold lineEnd List.rdropWhile
  rw [List.reverse_append, List.dropWhile_append_of_pos other]
  rcases lines with rfl | ⟨before, rfl⟩
  · rfl
  · simp

theorem exists_lines (bytes : Bytes) :
    ∃ body tail, bytes = body ++ tail ∧ Terminated body ∧ lineFeed ∉ tail := by
  induction bytes using List.reverseRecOn with
  | nil => exact ⟨[], [], rfl, .inl rfl, List.not_mem_nil⟩
  | append_singleton bytes b ih =>
      by_cases ends : b = lineFeed
      · subst ends
        exact ⟨bytes ++ [lineFeed], [], (List.append_nil _).symm, .inr ⟨bytes, rfl⟩, List.not_mem_nil⟩
      · obtain ⟨body, tail, rfl, lines, oneLine⟩ := ih
        refine ⟨body, tail ++ [b], List.append_assoc _ _ _, lines, ?_⟩
        rw [List.mem_append, List.mem_singleton]
        rintro (member | rfl)
        · exact oneLine member
        · exact ends rfl

theorem readLines_line {tail : Bytes} (oneLine : lineFeed ∉ tail) (line rest : Bytes) :
    readLines line (tail ++ lineFeed :: rest) = (jsonValue (line ++ tail)).bind fun value =>
      (readLines [] rest).bind fun values => some (value :: values) := by
  induction tail generalizing line with
  | nil => rw [List.nil_append, readLines, if_pos rfl, List.append_nil]; rfl
  | cons b tail ih =>
      rw [List.mem_cons, not_or] at oneLine
      rw [List.cons_append, readLines, if_neg (Ne.symm oneLine.1), ih oneLine.2, List.append_assoc]
      rfl

theorem readLines_append {body : Bytes} (lines : Terminated body) (rest : Bytes) :
    readLines [] (body ++ rest) = (readLines [] body).bind fun first =>
      (readLines [] rest).bind fun second => some (first ++ second) := by
  have split (before line : Bytes) : readLines line (before ++ lineFeed :: rest) =
      (readLines line (before ++ [lineFeed])).bind fun first =>
        (readLines [] rest).bind fun second => some (first ++ second) := by
    induction before generalizing line with
    | nil =>
        simp only [List.nil_append, readLines, if_true, Option.bind_eq_bind]
        cases jsonValue line <;> simp
    | cons b before ih =>
        simp only [List.cons_append, readLines, Option.bind_eq_bind]
        split
        · rw [ih]
          cases jsonValue line with
          | none => rfl
          | some value =>
              cases readLines [] (before ++ [lineFeed]) with
              | none => rfl
              | some first => cases readLines [] rest <;> rfl
        · exact ih _
  rcases lines with rfl | ⟨before, rfl⟩
  · cases h : readLines [] rest <;> simp [readLines, h]
  · rw [List.append_assoc]
    exact split before []

/-- The complete lines decide with the tail. -/
theorem analyzeBytes_lines {body tail : Bytes} (lines : Terminated body) (oneLine : lineFeed ∉ tail)
    (torn : tail ≠ []) :
    analyzeBytes (body ++ tail) = (readLines [] body).bind fun completeLines =>
      match jsonValue tail with
      | some value => conclude .appendLf (body ++ tail ++ [lineFeed]) (completeLines ++ [value]) 0
      | none =>
          if completeLines = [] then none else conclude .truncatePartialTail body completeLines tail.length := by
  have notTerminated : (body ++ tail).getLast? ≠ some lineFeed := by
    rw [List.getLast?_append_of_ne_nil _ torn]
    intro last
    exact oneLine (List.mem_of_getLast? last)
  have size : lineEnd (body ++ tail) = body.length := lineEnd_append lines oneLine
  have positive : tail.length > 0 := List.length_pos_of_ne_nil torn
  simp only [analyzeBytes, if_neg notTerminated, size, List.take_left, List.drop_left, Option.bind_eq_bind]
  cases readLines [] body with
  | none => rfl
  | some completeLines =>
      simp only [Option.bind_some]
      cases jsonValue tail with
      | some value => rfl
      | none =>
          cases completeLines with
          | nil => rfl
          | cons first rest => simp [ensure, positive]

theorem analyzeBytes_terminated (before : Bytes) :
    analyzeBytes (before ++ [lineFeed]) = (readLines [] (before ++ [lineFeed])).bind fun completeLines =>
      conclude .unchanged (before ++ [lineFeed]) completeLines 0 := by
  have terminated : (before ++ [lineFeed]).getLast? = some lineFeed := List.getLast?_concat
  simp only [analyzeBytes, if_pos terminated, List.take_length, Option.bind_eq_bind]

theorem conclude_eq_some {action : Action} {after : Bytes} {completeLines : List JsValue} {removedBytes : Nat}
    {a : Analysis} (h : conclude action after completeLines removedBytes = some a) :
    ∃ first rest sessionMeta, completeLines = first :: rest ∧ after.length ≤ maxFileBytes ∧
      assertSessionMeta first = some sessionMeta ∧ a = { action, after, sessionMeta, removedBytes } := by
  cases completeLines with
  | nil => cases h
  | cons first rest =>
      simp only [conclude, Option.bind_eq_bind, Option.bind_eq_some_iff, ensure_eq_some_iff] at h
      obtain ⟨-, small, sessionMeta, pinned, same⟩ := h
      exact ⟨first, rest, sessionMeta, rfl, small, pinned, (Option.some.inj same).symm⟩

theorem conclude_of {action : Action} {after : Bytes} {first : JsValue} {rest : List JsValue} {removedBytes : Nat}
    {sessionMeta : SessionMeta} (small : after.length ≤ maxFileBytes)
    (pinned : assertSessionMeta first = some sessionMeta) :
    conclude action after (first :: rest) removedBytes = some { action, after, sessionMeta, removedBytes } := by
  simp only [conclude, ensure_pos small, pinned, Option.bind_eq_bind, Option.bind_some]

/-! ### Any file -/

/-- A file read with the lines of an accepted analysis. -/
theorem analyzeBytes_of_lines {bytes : Bytes} {first : JsValue} {rest : List JsValue} {sessionMeta : SessionMeta}
    (lines : Terminated bytes) (read : readLines [] bytes = some (first :: rest))
    (small : bytes.length ≤ maxFileBytes) (pinned : assertSessionMeta first = some sessionMeta) :
    analyzeBytes bytes = some { action := .unchanged, after := bytes, sessionMeta, removedBytes := 0 } := by
  rcases lines with rfl | ⟨before, rfl⟩
  · cases read
  · rw [analyzeBytes_terminated, read, Option.bind_some, conclude_of small pinned]

/-- What is accepted is kept, gets its line feed or loses what follows its last one, and the result is
accepted as it is, with the same metadata. -/
theorem analyzeBytes_after {bytes : Bytes} {a : Analysis} (h : analyzeBytes bytes = some a) :
    (a.after = bytes ∨ a.after = bytes ++ [lineFeed] ∨ a.after = bytes.take (lineEnd bytes)) ∧
      analyzeBytes a.after =
        some { action := .unchanged, after := a.after, sessionMeta := a.sessionMeta, removedBytes := 0 } := by
  obtain ⟨body, tail, rfl, lines, oneLine⟩ := exists_lines bytes
  by_cases torn : tail = []
  · subst torn
    rw [List.append_nil] at h ⊢
    rcases lines with rfl | ⟨before, rfl⟩
    · cases h
    · rw [analyzeBytes_terminated] at h
      obtain ⟨completeLines, read, concluded⟩ := Option.bind_eq_some_iff.mp h
      obtain ⟨first, rest, sessionMeta, rfl, small, pinned, rfl⟩ := conclude_eq_some concluded
      exact ⟨.inl rfl, analyzeBytes_of_lines (.inr ⟨before, rfl⟩) read small pinned⟩
  · rw [analyzeBytes_lines lines oneLine torn] at h
    obtain ⟨completeLines, read, h⟩ := Option.bind_eq_some_iff.mp h
    split at h
    · rename_i value parsed
      obtain ⟨first, rest, sessionMeta, all, small, pinned, rfl⟩ := conclude_eq_some h
      have reread : readLines [] (body ++ tail ++ [lineFeed]) = some (first :: rest) := by
        rw [List.append_assoc, readLines_append lines, readLines_line oneLine, read, List.nil_append, parsed]
        simpa [readLines] using all
      exact ⟨.inr (.inl rfl), analyzeBytes_of_lines (.inr ⟨_, rfl⟩) reread small pinned⟩
    · split at h
      · cases h
      · obtain ⟨first, rest, sessionMeta, rfl, small, pinned, rfl⟩ := conclude_eq_some h
        refine ⟨.inr (.inr ?_), analyzeBytes_of_lines lines read small pinned⟩
        rw [lineEnd_append lines oneLine, List.take_left]

/-! ### Records -/

/-- A record: the text of an object on one line, without space around it. -/
structure Record where
  text : JsString
  members : List (JsString × JsValue)
  wellFormed : WellFormed text
  parses : parseJson text = some (.object members)
  oneLine : lineFeed ∉ encodeUtf8 text
  trimmedStart : ∀ u ∈ text.head?, isSpace u = false
  trimmedEnd : ∀ u ∈ text.getLast?, isSpace u = false

namespace Record

def bytes (r : Record) : Bytes := encodeUtf8 r.text

def value (r : Record) : JsValue := .object r.members

theorem text_brace (r : Record) : ∃ text, r.text = 123 :: text := by
  obtain ⟨u, text, same⟩ : ∃ u text, r.text = u :: text := by
    cases same : r.text with
    | nil =>
        have parses := r.parses
        rw [same] at parses
        cases parses
    | cons u text => exact ⟨u, text, rfl⟩
  have noSpace := r.trimmedStart u (by rw [same]; rfl)
  have parses := r.parses
  rw [same] at parses
  exact ⟨text, brace_of_parseJson noSpace parses ▸ same⟩

theorem bytes_brace (r : Record) : ∃ rest, r.bytes = 0x7B :: rest := by
  obtain ⟨text, same⟩ := r.text_brace
  refine ⟨encodeUtf8 text, ?_⟩
  rw [bytes, same, encodeUtf8_cons (by decide)]
  rfl

theorem bytes_pos (r : Record) : 0 < r.bytes.length := by
  obtain ⟨rest, same⟩ := r.bytes_brace
  rw [same]
  exact Nat.succ_pos _

theorem jsonValue_bytes (r : Record) : jsonValue r.bytes = some r.value := by
  obtain ⟨text, start⟩ := r.text_brace
  obtain ⟨rest, brace⟩ := r.bytes_brace
  have noMark : (encodeUtf8 r.text).take 3 ≠ byteOrderMark := by
    rw [← bytes, brace]
    intro same
    exact absurd (List.cons.inj same).1 (by decide)
  have notEmpty : r.text.length ≠ 0 := by
    rw [start]
    exact Nat.succ_ne_zero _
  unfold jsonValue bytes
  rw [ensure_pos noMark, decodeFatal_encodeUtf8 r.wellFormed]
  simp only [ensure_pos notEmpty, r.parses, Option.bind_eq_bind, Option.bind_some]
  rfl

/-- A record cut short is no text. -/
theorem jsonValue_torn (r : Record) {start more : Bytes} (cut : r.bytes = start ++ more) (lost : more ≠ []) :
    jsonValue start = none := by
  rw [Option.eq_none_iff_forall_ne_some]
  intro v read
  simp only [jsonValue, Option.bind_eq_bind, Option.bind_eq_some_iff, ensure_eq_some_iff] at read
  obtain ⟨-, -, text, decoded, -, notEmpty, parsed⟩ := read
  have whole : decodeFatal (start ++ more) = some r.text := by
    rw [← cut]
    exact decodeFatal_encodeUtf8 r.wellFormed
  obtain ⟨same, goesOn⟩ := decodeFatal_append decoded whole
  cases text with
  | nil => exact absurd rfl notEmpty
  | cons u text =>
      obtain ⟨after, brace⟩ := r.text_brace
      obtain ⟨rfl, -⟩ := List.cons.inj (brace.symm.trans same)
      have parses := r.parses
      rw [same] at parses
      have spaces := space_of_parseJson parsed parses
      have isLast := List.getLast?_eq_some_getLast (goesOn lost)
      have ends : r.text.getLast? = some ((decodeUtf8 more).getLast (goesOn lost)) := by
        rw [same, List.getLast?_append_of_ne_nil _ (goesOn lost), isLast]
      have noSpace := r.trimmedEnd _ ends
      rw [spaces _ (List.mem_of_getLast? isLast)] at noSpace
      cases noSpace

end Record

/-! ### Rollouts -/

/-- The records, each ended by a line feed. -/
def terminate (records : List Record) : Bytes := records.flatMap fun r => r.bytes ++ [lineFeed]

/-- The records that lie whole in the first bytes of a rollout. -/
def contained : List Record → Nat → List Record
  | [], _ => []
  | r :: records, size => if r.bytes.length ≤ size then r :: contained records (size - (r.bytes.length + 1)) else []

/-- What has to be done to the bytes `before` to get `after`. -/
def repairAction (before after : Bytes) : Action :=
  if after = before then .unchanged
  else if before.length < after.length then .appendLf
  else .truncatePartialTail

@[simp] theorem terminate_nil : terminate [] = [] := rfl

@[simp] theorem terminate_cons (r : Record) (records : List Record) :
    terminate (r :: records) = r.bytes ++ lineFeed :: terminate records := by
  simp [terminate]

theorem terminate_append (first second : List Record) :
    terminate (first ++ second) = terminate first ++ terminate second := List.flatMap_append

theorem terminated_terminate (records : List Record) : Terminated (terminate records) := by
  induction records using List.reverseRecOn with
  | nil => exact .inl rfl
  | append_singleton records r _ =>
      refine .inr ⟨terminate records ++ r.bytes, ?_⟩
      rw [terminate_append, terminate_cons, terminate_nil, List.append_assoc]

theorem readLines_terminate (records : List Record) :
    readLines [] (terminate records) = some (records.map Record.value) := by
  induction records with
  | nil => rfl
  | cons r records ih =>
      have oneLine : lineFeed ∉ r.bytes := r.oneLine
      rw [terminate_cons, readLines_line oneLine, List.nil_append, r.jsonValue_bytes, ih]
      rfl

theorem contained_append (first rest : List Record) (size : Nat) :
    contained (first ++ rest) ((terminate first).length + size) = first ++ contained rest size := by
  induction first with
  | nil => rw [terminate_nil, List.length_nil, Nat.zero_add, List.nil_append, List.nil_append]
  | cons r first ih =>
      have total : (terminate (r :: first)).length + size =
          r.bytes.length + 1 + ((terminate first).length + size) := by
        rw [terminate_cons, List.length_append, List.length_cons]
        omega
      rw [total, List.cons_append, contained, if_pos (by omega), Nat.add_sub_cancel_left, ih, List.cons_append]

theorem contained_zero (records : List Record) : contained records 0 = [] := by
  cases records with
  | nil => rfl
  | cons r records => rw [contained, if_neg (Nat.not_le.mpr r.bytes_pos)]

/-- A cut falls between two records or into one. -/
theorem exists_cut {records : List Record} {start : Bytes} (cut : start <+: terminate records) :
    ∃ first rest tail, records = first ++ rest ∧ start = terminate first ++ tail ∧
      (tail = [] ∨ ∃ r more, rest = r :: more ∧ tail <+: r.bytes ∧ tail ≠ []) := by
  induction records generalizing start with
  | nil => exact ⟨[], [], [], rfl, List.prefix_nil.mp cut, .inl rfl⟩
  | cons r records ih =>
      by_cases torn : start.length ≤ r.bytes.length
      · have part : start <+: r.bytes := by
          rw [terminate_cons] at cut
          exact List.prefix_of_prefix_length_le cut (List.prefix_append _ _) torn
        by_cases empty : start = []
        · exact ⟨[], r :: records, [], rfl, empty, .inl rfl⟩
        · exact ⟨[], r :: records, start, rfl, rfl, .inr ⟨r, records, rfl, part, empty⟩⟩
      · have whole : r.bytes ++ [lineFeed] <+: start := by
          have line : r.bytes ++ [lineFeed] <+: terminate (r :: records) :=
            ⟨terminate records, by rw [terminate_cons, List.append_assoc]; rfl⟩
          apply List.prefix_of_prefix_length_le line cut
          rw [List.length_append, List.length_singleton]
          omega
        obtain ⟨after, rfl⟩ := whole
        have cut' : after <+: terminate records := by
          rw [terminate_cons, List.append_assoc, List.prefix_append_right_inj] at cut
          exact (List.prefix_cons_inj _).mp cut
        obtain ⟨first, rest, tail, rfl, rfl, inside⟩ := ih cut'
        refine ⟨r :: first, rest, tail, rfl, ?_, inside⟩
        rw [terminate_cons, List.append_assoc, List.append_assoc]
        rfl

section Cut

variable {r : Record} {rest : List Record} {start : Bytes} {sessionMeta : SessionMeta}

/-- The records before the cut, and what the analysis concludes from them. -/
theorem analyzeBytes_whole {first : List Record} {tail : Bytes} (notEmpty : first ≠ [])
    (pinned : ∀ r ∈ first.head?, assertSessionMeta r.value = some sessionMeta)
    (small : (terminate first).length ≤ maxFileBytes) (oneLine : lineFeed ∉ tail)
    (torn : tail ≠ [] → jsonValue tail = none) :
    analyzeBytes (terminate first ++ tail) = some
      { action := repairAction (terminate first ++ tail) (terminate first), after := terminate first,
        sessionMeta, removedBytes := tail.length } := by
  cases first with
  | nil => exact absurd rfl notEmpty
  | cons r first =>
      have lines := terminated_terminate (r :: first)
      have read := readLines_terminate (r :: first)
      by_cases empty : tail = []
      · subst empty
        rw [List.append_nil, analyzeBytes_of_lines lines read small (pinned r rfl)]
        simp [repairAction]
      · have notSame : terminate (r :: first) ≠ terminate (r :: first) ++ tail := by
          intro same
          exact empty (List.self_eq_append_right.mp same)
        have notLonger : ¬ (terminate (r :: first) ++ tail).length < (terminate (r :: first)).length := by
          rw [List.length_append]
          omega
        rw [analyzeBytes_lines lines oneLine empty, read, Option.bind_some, torn empty, repairAction,
          if_neg notSame, if_neg notLonger, List.map_cons]
        exact (if_neg (List.cons_ne_nil _ _)).trans (conclude_of small (pinned r rfl))

/-- A rollout cut after its first record keeps the records that lie whole before the cut. -/
theorem analyzeBytes_cut (pinned : assertSessionMeta r.value = some sessionMeta)
    (small : (terminate (r :: rest)).length ≤ maxFileBytes) (cut : start <+: terminate (r :: rest))
    (whole : r.bytes <+: start) :
    analyzeBytes start = some
      { action := repairAction start (terminate (contained (r :: rest) start.length)),
        after := terminate (contained (r :: rest) start.length)
        sessionMeta
        removedBytes := start.length - (terminate (contained (r :: rest) start.length)).length } := by
  obtain ⟨first, others, tail, same, rfl, inside⟩ := exists_cut cut
  have smaller (kept : List Record) (more : List Record) (split : r :: rest = kept ++ more) :
      (terminate kept).length ≤ maxFileBytes := by
    rw [split, terminate_append, List.length_append] at small
    omega
  have head (kept : List Record) (more : List Record) (split : r :: rest = kept ++ more) :
      ∀ r ∈ kept.head?, assertSessionMeta r.value = some sessionMeta := by
    intro r' isHead
    cases kept with
    | nil => cases isHead
    | cons k kept =>
        cases isHead
        rw [← (List.cons.inj split).1]
        exact pinned
  rw [List.length_append, same, contained_append]
  rcases inside with rfl | ⟨torn, more, rfl, part, notEmpty⟩
  · have some : first ≠ [] := by
      rintro rfl
      exact absurd (List.prefix_nil.mp whole) (List.ne_nil_of_length_pos r.bytes_pos)
    have nothing : lineFeed ∉ ([] : Bytes) := List.not_mem_nil
    have analysis := analyzeBytes_whole some (head first others same) (smaller first others same) nothing (absurd rfl)
    simpa [contained_zero] using analysis
  · by_cases complete : tail = torn.bytes
    · subst complete
      have kept : contained (torn :: more) torn.bytes.length = [torn] := by
        rw [contained, if_pos (Nat.le_refl _), Nat.sub_eq_zero_of_le (Nat.le_succ _), contained_zero]
      have split : r :: rest = (first ++ [torn]) ++ more := by rw [same, List.append_assoc]; rfl
      have after : terminate first ++ torn.bytes ++ [lineFeed] = terminate (first ++ [torn]) := by
        rw [terminate_append, terminate_cons, terminate_nil, List.append_assoc]
      have values : first.map Record.value ++ [torn.value] = (first ++ [torn]).map Record.value := by simp
      have longer : (terminate first ++ torn.bytes).length < (terminate (first ++ [torn])).length := by
        rw [← after]
        simp
      have other : terminate (first ++ [torn]) ≠ terminate first ++ torn.bytes := by
        intro same
        rw [same] at longer
        exact Nat.lt_irrefl _ longer
      have oneLine : lineFeed ∉ torn.bytes := torn.oneLine
      rw [kept, ← List.length_append, analyzeBytes_lines (terminated_terminate first) oneLine notEmpty,
        readLines_terminate, Option.bind_some, torn.jsonValue_bytes]
      simp only [after, values, repairAction, if_neg other, if_pos longer, Nat.sub_eq_zero_of_le longer.le]
      cases lines : first ++ [torn] with
      | nil => exact absurd lines (by simp)
      | cons k kept =>
          rw [← lines, lines, List.map_cons]
          exact conclude_of (lines ▸ smaller _ _ split) (head _ _ split k (by rw [lines]; rfl))
    · have shorter : ¬ torn.bytes.length ≤ tail.length := fun enough => complete (part.eq_of_length_le enough)
      have oneLine : lineFeed ∉ tail := fun member => torn.oneLine (part.subset member)
      have cutShort : tail ≠ [] → jsonValue tail = none := by
        intro _
        obtain ⟨lost, split⟩ := part
        refine torn.jsonValue_torn split.symm ?_
        rintro rfl
        rw [List.append_nil] at split
        exact complete split
      have some : first ≠ [] := by
        rintro rfl
        obtain ⟨rfl, rfl⟩ := List.cons.inj same
        exact shorter whole.length_le
      rw [contained, if_neg shorter, List.append_nil,
        analyzeBytes_whole some (head first _ same) (smaller first _ same) oneLine cutShort]
      simp

end Cut

/-- The repair loses nothing but the torn record, and a repaired file needs no repair. -/
theorem tailRepairLaws :
    (∀ (r : Record) (rest : List Record) (start : Bytes) (sessionMeta : SessionMeta),
      assertSessionMeta r.value = some sessionMeta → (terminate (r :: rest)).length ≤ maxFileBytes →
      start <+: terminate (r :: rest) → r.bytes <+: start →
      analyzeBytes start = some
        { action := repairAction start (terminate (contained (r :: rest) start.length)),
          after := terminate (contained (r :: rest) start.length)
          sessionMeta
          removedBytes := start.length - (terminate (contained (r :: rest) start.length)).length }) ∧
    ∀ (bytes : Bytes) (a : Analysis), analyzeBytes bytes = some a →
      (a.after = bytes ∨ a.after = bytes ++ [lineFeed] ∨ a.after = bytes.take (lineEnd bytes)) ∧
        analyzeBytes a.after =
          some { action := .unchanged, after := a.after, sessionMeta := a.sessionMeta, removedBytes := 0 } :=
  ⟨fun _ _ _ _ pinned small cut whole => analyzeBytes_cut pinned small cut whole,
    fun _ _ accepted => analyzeBytes_after accepted⟩

def sampleId : JsString := js "0198c0de-0000-7000-8000-000000000001"

theorem sampleId_isUuid : IsUuid sampleId := by decide

def sampleMembers : List (JsString × JsValue) :=
  [(js "type", .string (js "session_meta")),
    (js "payload", .object [(js "cli_version", .string pinnedRolloutCliVersion),
      (js "id", .string sampleId), (js "session_id", .string sampleId)])]

theorem sampleMembers_parse : parseJson (stringify (.object sampleMembers)) = some (.object sampleMembers) := by
  rw [parseJson_stringify]
  rfl

theorem sampleText_plain : ∀ u ∈ stringify (.object sampleMembers), u.toNat < 0xD800 := by decide +kernel

theorem sampleText_oneLine : lineFeed ∉ encodeUtf8 (stringify (.object sampleMembers)) := by decide +kernel

theorem sampleText_start : ∀ u ∈ (stringify (.object sampleMembers)).head?, isSpace u = false := by
  have first : (stringify (.object sampleMembers)).head? = some 123 := by decide +kernel
  intro u inside
  rw [first] at inside
  obtain rfl := Option.some.inj inside
  rfl

theorem sampleText_end : ∀ u ∈ (stringify (.object sampleMembers)).getLast?, isSpace u = false := by
  have last : (stringify (.object sampleMembers)).getLast? = some 125 := by decide +kernel
  intro u inside
  rw [last] at inside
  obtain rfl := Option.some.inj inside
  rfl

def sampleRecord : Record where
  text := stringify (.object sampleMembers)
  members := sampleMembers
  wellFormed := wellFormed_of_plain sampleText_plain
  parses := sampleMembers_parse
  oneLine := sampleText_oneLine
  trimmedStart := sampleText_start
  trimmedEnd := sampleText_end

def sampleMeta : SessionMeta where
  sessionId := ⟨sampleId, sampleId_isUuid⟩
  threadId := ⟨sampleId, sampleId_isUuid⟩

/-- The second record is cut inside its session ID. -/
theorem tailRepairLaws_torn :
    analyzeBytes (sampleRecord.bytes ++ lineFeed :: sampleRecord.bytes.take 150) = some
      { action := .truncatePartialTail, after := sampleRecord.bytes ++ [lineFeed], sessionMeta := sampleMeta,
        removedBytes := 150 } := by
  have cut : sampleRecord.bytes ++ lineFeed :: sampleRecord.bytes.take 150 <+:
      terminate [sampleRecord, sampleRecord] := by
    rw [terminate_cons, terminate_cons, List.prefix_append_right_inj, List.prefix_cons_inj]
    exact (List.take_prefix _ _).trans (List.prefix_append _ _)
  have kept : contained [sampleRecord, sampleRecord]
      (sampleRecord.bytes ++ lineFeed :: sampleRecord.bytes.take 150).length = [sampleRecord] := by
    have size : sampleRecord.bytes.length = 155 := by decide +kernel
    simp [contained, size]
  rw [tailRepairLaws.1 sampleRecord [sampleRecord] _ sampleMeta (by decide +kernel) (by decide +kernel) cut
    (List.prefix_append _ _), kept]
  decide +kernel

end PortableCodex.RolloutRepair
