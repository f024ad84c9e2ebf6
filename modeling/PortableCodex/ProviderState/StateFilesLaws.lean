import PortableCodex.ProviderState.Capacity
import PortableCodex.ProviderState.StateFiles
import PortableCodex.ProviderState.TailLaws

/-!
A cached load is a cold load.

`Holds` says that a cache is what a directory reads as at the head of the cache. Where the metadata of a file tell its
bytes apart (`Faithful`), a load with a cache that some earlier directory held is a load without it (`load_eq_cold`).
Every step of a provider keeps this (`Kept.step`), whatever happens to the directory and the anchor between its
operations.
-/

namespace PortableCodex.ProviderState.StateFiles

open Js

/-! ### Readers -/

theorem parse_subarray {bytes : Bytes} {head : LedgerHead} {checkpointState : GenerationState}
    {parsed reparsed : ActiveLedger} (first : parseActiveLedgerWithTail bytes head checkpointState = some parsed)
    (second : parseActiveLedgerWithTail (subarray bytes 0 head.ledgerBytes.val) head checkpointState =
      some reparsed) : reparsed.state = parsed.state := by
  obtain ⟨-, -, inside, reader, read, -, state, -⟩ := parseActiveLedgerWithTail_eq_some_iff.mp first
  obtain ⟨-, -, -, other, reread, -, restate, -⟩ := parseActiveLedgerWithTail_eq_some_iff.mp second
  have same : subarray (subarray bytes 0 head.ledgerBytes.val) 0 head.ledgerBytes.val =
      subarray bytes 0 head.ledgerBytes.val := by
    simp [subarray]
  rw [same, read] at reread
  have reader_eq : reader = other := (Prod.mk.inj (Option.some.inj reread)).1
  rw [← state, ← restate, reader_eq]

/-- The offset of a tail is the end of the anchored bytes. -/
theorem truncateOffset_eq {bytes : Bytes} {head : LedgerHead} {checkpointState : GenerationState}
    {parsed : ActiveLedger} {offset : Nat}
    (read : parseActiveLedgerWithTail bytes head checkpointState = some parsed)
    (tail : parsed.truncateOffset = some offset) : offset = head.ledgerBytes.val := by
  obtain ⟨-, -, -, _, -, -, -, whole | cut⟩ := parseActiveLedgerWithTail_eq_some_iff.mp read
  · rw [whole.2] at tail
    cases tail
  · rw [cut.2.1] at tail
    exact (Option.some.inj tail).symm

/-- Only what a checkpoint is identified by is read of a head. -/
theorem loadCheckpointState_congr {file : StateFile} {head other : LedgerHead}
    (version : head.contractVersion = other.contractVersion) (same : CheckpointIdentityEqual head other) :
    loadCheckpointState file head = loadCheckpointState file other := by
  obtain ⟨generation, base, revision, count, checksum, bytes⟩ := same
  have frame : readCheckpointFrame file.bytes head = readCheckpointFrame file.bytes other := by
    funext reader
    simp only [readCheckpointFrame, version, bytes]
  have operations (n : Nat) (previous : Option OpaqueId) (reader : CheckpointReader) :
      readCheckpointOperations file.bytes head n previous reader =
        readCheckpointOperations file.bytes other n previous reader := by
    induction n generalizing previous reader with
    | zero => rfl
    | succ n ih => simp only [readCheckpointOperations, frame, generation, version, ih]
  have storages (n : Nat) (previous : Option OpaqueId) (reader : CheckpointReader) :
      readCheckpointStorages file.bytes head n previous reader =
        readCheckpointStorages file.bytes other n previous reader := by
    induction n generalizing previous reader with
    | zero => rfl
    | succ n ih => simp only [readCheckpointStorages, frame, generation, ih]
  simp only [loadCheckpointState, parseCheckpointStream, readCheckpointStart, readCheckpointEnd, frame, generation,
    base, revision, count, checksum, bytes, version, operations, storages]

/-- Loading a checkpoint keeps the version and the revision that it starts with. -/
theorem readCheckpointOperations_frame {bytes : Bytes} {head : LedgerHead} {n : Nat} {previous : Option OpaqueId}
    {reader after : CheckpointReader} (read : readCheckpointOperations bytes head n previous reader = some after) :
    after.state.contractVersion = reader.state.contractVersion ∧
      after.state.stateRevision = reader.state.stateRevision := by
  induction n generalizing previous reader with
  | zero =>
      cases read
      exact ⟨rfl, rfl⟩
  | succ n ih =>
      rw [readCheckpointOperations] at read
      obtain ⟨envelope, -, read⟩ := Option.bind_eq_some_iff.mp read
      split at read
      · obtain ⟨_, -, read⟩ := Option.bind_eq_some_iff.mp read
        have rest := ih read
        exact rest
      · cases read

theorem readCheckpointStorages_frame {bytes : Bytes} {head : LedgerHead} {n : Nat} {previous : Option OpaqueId}
    {reader after : CheckpointReader} (read : readCheckpointStorages bytes head n previous reader = some after) :
    after.state.contractVersion = reader.state.contractVersion ∧
      after.state.stateRevision = reader.state.stateRevision := by
  induction n generalizing previous reader with
  | zero =>
      cases read
      exact ⟨rfl, rfl⟩
  | succ n ih =>
      rw [readCheckpointStorages] at read
      obtain ⟨envelope, -, read⟩ := Option.bind_eq_some_iff.mp read
      split at read
      · rename_i frame _
        obtain ⟨_, -, read⟩ := Option.bind_eq_some_iff.mp read
        have rest := ih read
        have here : (addStorage reader.state frame.storage).contractVersion = reader.state.contractVersion ∧
            (addStorage reader.state frame.storage).stateRevision = reader.state.stateRevision := by
          cases frame.storage <;> exact ⟨rfl, rfl⟩
        exact ⟨rest.1.trans here.1, rest.2.trans here.2⟩
      · cases read

theorem loadCheckpointState_anchors {file : StateFile} {head : LedgerHead} {state : GenerationState}
    (loaded : loadCheckpointState file head = some state) :
    state.contractVersion = head.contractVersion ∧ state.stateRevision = head.checkpointStateRevision := by
  simp only [loadCheckpointState, parseCheckpointStream, Option.bind_eq_bind, Option.bind_eq_some_iff] at loaded
  obtain ⟨-, -, ⟨start, first⟩, started, second, operations, third, storages, -, -, validated⟩ := loaded
  obtain ⟨version, revision, -⟩ := validateCheckpointState_eq_some validated
  obtain ⟨version', revision'⟩ := readCheckpointStorages_frame storages
  obtain ⟨version'', revision''⟩ := readCheckpointOperations_frame operations
  have opened : first.state = emptyGenerationState head.checkpointStateRevision head.contractVersion := by
    simp only [readCheckpointStart, Option.bind_eq_bind, Option.bind_eq_some_iff] at started
    obtain ⟨envelope, -, started⟩ := started
    split at started
    · obtain ⟨_, -, started⟩ := Option.bind_eq_some_iff.mp started
      cases started
      rfl
    · cases started
  rw [version, version', version'', revision, revision', revision'', opened]
  exact ⟨rfl, rfl⟩

/-- An empty ledger leads from the checkpoint state to itself. -/
theorem parse_empty {head : LedgerHead} {state : GenerationState}
    (version : state.contractVersion = head.contractVersion) (revision : state.stateRevision = head.stateRevision)
    (noFrames : head.frameCount.val = 0) (noBytes : head.ledgerBytes.val = 0)
    (checksum : head.checkpointChecksum = head.lastChecksum) :
    parseActiveLedgerWithTail [] head state =
      some { lastAppliedRecord := none, state, truncateOffset := none } := by
  apply parseActiveLedgerWithTail_eq_some_iff.mpr
  rw [noFrames, noBytes]
  exact ⟨version, Nat.zero_le _, le_rfl, _, rfl, ⟨rfl, checksum, revision⟩, rfl, .inl ⟨rfl, rfl⟩⟩

/-! ### What a cache holds -/

/-- The files of a head, read without a cache, lead to these states and leave no tail. -/
structure ReadsAs (directory : StateDirectory) (head : LedgerHead) (checkpoint : Option StateFile)
    (checkpointState : GenerationState) (ledger : StateFile) (state : GenerationState) : Prop where
  later : ¬ TrueGenesis head
  opened : openCheckpoint none head directory = some checkpoint
  found : directory.ledger head.generation = some ledger
  loaded : checkpointStateOf none head checkpoint = some checkpointState
  parsed : ∃ parsed, parseActiveLedgerWithTail ledger.bytes head checkpointState = some parsed ∧
    parsed.state = state ∧ parsed.truncateOffset = none

/-- The cache is what the directory reads as at its head. -/
def Holds (directory : StateDirectory) (cache : StateCache) : Prop :=
  (TrueGenesis cache.head ∧ cache = genesisStateCache cache.head) ∨
    ∃ checkpoint checkpointState ledger state,
      ReadsAs directory cache.head checkpoint checkpointState ledger state ∧
      cache = cacheOf cache.head checkpoint checkpointState ledger state

variable {directory : StateDirectory} {head : LedgerHead} {checkpoint : Option StateFile}
  {checkpointState state : GenerationState} {ledger : StateFile}

theorem ReadsAs.size (reads : ReadsAs directory head checkpoint checkpointState ledger state) :
    ledger.bytes.length = head.ledgerBytes.val ∧ ledger.bytes.length ≤ maxLedgerBytes := by
  obtain ⟨parsed, read, -, whole⟩ := reads.parsed
  exact ⟨whole_length read whole, (parseActiveLedgerWithTail_eq_some_iff.mp read).2.1⟩

theorem ReadsAs.readLedger (reads : ReadsAs directory head checkpoint checkpointState ledger state)
    (allowTruncate : Bool) (times : FileTimes) :
    readLedger allowTruncate head checkpointState ledger times = some (ledger, state) := by
  obtain ⟨parsed, read, rfl, whole⟩ := reads.parsed
  rw [StateFiles.readLedger, read]
  simp only [Option.bind_eq_bind, Option.bind_some, whole]

theorem setLedger_self (here : directory.ledger head.generation = some ledger) :
    directory.setLedger head.generation ledger = directory := by
  rw [StateDirectory.setLedger, ← here, Function.update_eq_self]

theorem openLedger_none (here : directory.ledger head.generation = some ledger) :
    openLedger none head directory = some ledger := by
  rw [openLedger, here]
  rfl

/-- A load without a cache reads the files. -/
theorem load_of_read {allowTruncate : Bool} {times : FileTimes} {recovered : StateFile} (later : ¬ TrueGenesis head)
    (opened : openCheckpoint none head directory = some checkpoint)
    (found : directory.ledger head.generation = some ledger)
    (fits : (if allowTruncate then head.ledgerBytes.val ≤ ledger.bytes.length
      else ledger.bytes.length = head.ledgerBytes.val) ∧ ledger.bytes.length ≤ maxLedgerBytes)
    (loaded : checkpointStateOf none head checkpoint = some checkpointState)
    (read : readLedger allowTruncate head checkpointState ledger times = some (recovered, state)) :
    loadGenerationState allowTruncate none head directory times =
      some (cacheOf head checkpoint checkpointState recovered state,
        directory.setLedger head.generation recovered) := by
  rw [loadGenerationState, if_neg later]
  simp only [Option.filter_none, opened, openLedger_none found, Option.bind_eq_bind, Option.bind_some,
    ensure_pos fits, loaded, read]

/-- What the directory reads as is loaded without a cache. -/
theorem ReadsAs.load (reads : ReadsAs directory head checkpoint checkpointState ledger state)
    (allowTruncate : Bool) (times : FileTimes) :
    loadGenerationState allowTruncate none head directory times =
      some (cacheOf head checkpoint checkpointState ledger state, directory) := by
  obtain ⟨whole, room⟩ := reads.size
  have fits : (if allowTruncate then head.ledgerBytes.val ≤ ledger.bytes.length
      else ledger.bytes.length = head.ledgerBytes.val) ∧ ledger.bytes.length ≤ maxLedgerBytes := by
    refine ⟨?_, room⟩
    cases allowTruncate with
    | false => exact whole
    | true => exact whole.ge
  rw [load_of_read reads.later reads.opened reads.found fits reads.loaded (reads.readLedger allowTruncate times),
    setLedger_self reads.found]

theorem Holds.load {cache : StateCache} (holds : Holds directory cache) (allowTruncate : Bool) (times : FileTimes) :
    loadGenerationState allowTruncate none cache.head directory times = some (cache, directory) := by
  rcases holds with ⟨genesis, same⟩ | ⟨checkpoint, checkpointState, ledger, state, reads, same⟩
  · rw [loadGenerationState, if_pos genesis, Option.filter_none, ← same]
  · rw [reads.load, ← same]

/-- What is loaded without a cache is what the directory then holds. -/
theorem holds_of_load {cache : StateCache} {next : StateDirectory} {allowTruncate : Bool} {times : FileTimes}
    (load : loadGenerationState allowTruncate none head directory times = some (cache, next)) :
    cache.head = head ∧ Holds next cache := by
  rw [loadGenerationState] at load
  split at load
  · rename_i genesis
    cases load
    exact ⟨rfl, .inl ⟨genesis, rfl⟩⟩
  · rename_i later
    simp only [Option.filter_none, Option.bind_eq_bind, Option.bind_eq_some_iff, ensure_eq_some_iff,
      exists_const] at load
    obtain ⟨checkpoint, opened, ledger, ledgerOpened, -, checkpointState, loaded, ⟨recovered, state⟩, read, same⟩ :=
      load
    cases same
    obtain ⟨parsed, parses, read⟩ := Option.bind_eq_some_iff.mp read
    refine ⟨rfl, .inr ⟨checkpoint, checkpointState, recovered, state, ?_, rfl⟩⟩
    have checkpoints : openCheckpoint none head (directory.setLedger head.generation recovered) =
        openCheckpoint none head directory := rfl
    refine ⟨later, checkpoints.trans opened, Function.update_self _ _ _, loaded, ?_⟩
    split at read
    · rename_i whole
      cases read
      exact ⟨parsed, parses, rfl, whole⟩
    · rename_i offset tail
      obtain ⟨_, -, read⟩ := Option.bind_eq_some_iff.mp read
      obtain ⟨reparsed, again, read⟩ := Option.bind_eq_some_iff.mp read
      obtain ⟨_, whole, read⟩ := Option.bind_eq_some_iff.mp read
      cases read
      obtain rfl := truncateOffset_eq parses tail
      exact ⟨reparsed, again, parse_subarray parses again, ensure_eq_some_iff.mp whole⟩

/-! ### Loading with a cache -/

/-- Where two states of a file share their identity and their metadata, they share their bytes. -/
def Agree (first second : Option StateFile) : Prop :=
  ∀ f ∈ first, ∀ g ∈ second, f.identity = g.identity → f.metadata = g.metadata → f.bytes = g.bytes

/-- The files of two directories agree. -/
def Faithful (earlier directory : StateDirectory) : Prop :=
  ∀ generation, Agree (earlier.checkpoint generation) (directory.checkpoint generation) ∧
    Agree (earlier.ledger generation) (directory.ledger generation)

theorem Agree.eq {f g : StateFile} (agree : Agree (some f) (some g)) (identity : f.identity = g.identity)
    (metadata : f.metadata = g.metadata) : f = g := by
  have bytes := agree f rfl g rfl identity metadata
  obtain ⟨_, ⟨_, _⟩, _⟩ := f
  obtain ⟨_, ⟨_, _⟩, _⟩ := g
  simp only [StateFile.metadata, MetadataSnapshot.mk.injEq] at metadata identity bytes
  obtain ⟨rfl, rfl, -⟩ := metadata
  subst identity
  subst bytes
  rfl

theorem filter_pos {cache : StateCache} (p : StateCache → Prop) [DecidablePred p] (holds : p cache) :
    (some cache).filter (fun cache => p cache) = some cache :=
  Option.filter_some_pos (decide_eq_true holds)

theorem filter_neg {cache : StateCache} (p : StateCache → Prop) [DecidablePred p] (fails : ¬ p cache) :
    (some cache).filter (fun cache => p cache) = none :=
  Option.filter_some_neg (decide_eq_false fails)

section Opening

variable {same : Option StateCache} {cache : StateCache}

theorem openCheckpoint_cold (opened : openCheckpoint same head directory = some checkpoint) :
    openCheckpoint none head directory = some checkpoint := by
  rw [openCheckpoint] at opened ⊢
  split at opened
  · rename_i first
    rw [if_pos first]
    exact opened
  · rename_i later
    obtain ⟨file, found, opened⟩ := Option.bind_eq_some_iff.mp opened
    obtain ⟨_, -, opened⟩ := Option.bind_eq_some_iff.mp opened
    rw [if_neg later, found]
    exact opened

theorem openLedger_found (opened : openLedger same head directory = some ledger) :
    directory.ledger head.generation = some ledger := by
  obtain ⟨file, found, opened⟩ := Option.bind_eq_some_iff.mp opened
  obtain ⟨_, -, opened⟩ := Option.bind_eq_some_iff.mp opened
  rw [found]
  exact opened

theorem openLedger_pin (opened : openLedger (some cache) head directory = some ledger) {pin : FileIdentity}
    (pinned : cache.ledgerPin = some pin) : ledger.identity = pin := by
  obtain ⟨file, found, opened⟩ := Option.bind_eq_some_iff.mp opened
  obtain ⟨_, checked, opened⟩ := Option.bind_eq_some_iff.mp opened
  cases opened
  simpa [pinned] using checked

/-- The checkpoint that is opened with a cache of the generation: there is none, or it has the pin of the cache. -/
theorem openCheckpoint_pin (opened : openCheckpoint (some cache) head directory = some checkpoint) :
    (head.generation.val = 0 ∧ checkpoint = none) ∨
      ∃ file, checkpoint = some file ∧ directory.checkpoint head.generation = some file ∧
        cache.checkpointPin = some file.identity := by
  rw [openCheckpoint] at opened
  split at opened
  · rename_i first
    cases opened
    exact .inl ⟨first, rfl⟩
  · obtain ⟨file, found, opened⟩ := Option.bind_eq_some_iff.mp opened
    obtain ⟨_, checked, opened⟩ := Option.bind_eq_some_iff.mp opened
    cases opened
    exact .inr ⟨file, rfl, found, by simpa using checked⟩

end Opening

section Reuse

variable {earlier : StateDirectory} {cache : StateCache} {read : Option StateFile} {readState : GenerationState}
  {readFrom : StateFile}

/-- The checkpoint with the metadata of the cache is the one that the cache was read from. -/
theorem checkpoint_eq (reads : ReadsAs earlier cache.head read checkpointState readFrom state)
    (held : cache = cacheOf cache.head read checkpointState readFrom state) (faithful : Faithful earlier directory)
    (same : SameGeneration head cache) (opened : openCheckpoint (some cache) head directory = some checkpoint)
    (metadata : cache.checkpointMetadata = checkpoint.map (·.metadata)) : read = checkpoint := by
  have pinned : cache.checkpointPin = read.map (·.identity) := congrArg StateCache.checkpointPin held
  have snapshot : cache.checkpointMetadata = read.map (·.metadata) := congrArg StateCache.checkpointMetadata held
  rw [snapshot] at metadata
  rcases openCheckpoint_pin opened with ⟨-, rfl⟩ | ⟨file, rfl, found, pin⟩
  · exact Option.map_eq_none_iff.mp metadata
  · rw [pinned] at pin
    cases form : read with
    | none =>
        rw [form] at pin
        cases pin
    | some other =>
        simp only [form, Option.map_some, Option.some.injEq] at pin metadata
        -- the cache was read from the checkpoint of the same generation
        have stored : earlier.checkpoint head.generation = some other := by
          have opens := reads.opened
          rw [form, openCheckpoint, same.2] at opens
          split at opens
          · cases opens
          · obtain ⟨_, here, opens⟩ := Option.bind_eq_some_iff.mp opens
            rw [here]
            cases opens
            rfl
        have agree := (faithful head.generation).1
        rw [stored, found] at agree
        rw [agree.eq pin metadata]

/-- The ledger with the metadata of the cache is the one that the cache was read from. -/
theorem ledger_eq (reads : ReadsAs earlier cache.head read checkpointState readFrom state)
    (held : cache = cacheOf cache.head read checkpointState readFrom state) (faithful : Faithful earlier directory)
    (same : SameGeneration head cache) (opened : openLedger (some cache) head directory = some ledger)
    (metadata : cache.ledgerMetadata = some ledger.metadata) : readFrom = ledger := by
  have pinned : cache.ledgerPin = some readFrom.identity := congrArg StateCache.ledgerPin held
  have snapshot : cache.ledgerMetadata = some readFrom.metadata := congrArg StateCache.ledgerMetadata held
  rw [snapshot, Option.some.injEq] at metadata
  have agree := (faithful head.generation).2
  have stored := reads.found
  rw [same.2] at stored
  rw [stored, openLedger_found opened] at agree
  exact agree.eq (openLedger_pin opened pinned).symm metadata

/-- A checkpoint state that is reused is the one that would be loaded. -/
theorem checkpointStateOf_cold (reads : ReadsAs earlier cache.head read checkpointState readFrom state)
    (held : cache = cacheOf cache.head read checkpointState readFrom state) (faithful : Faithful earlier directory)
    (same : SameGeneration head cache) (opened : openCheckpoint (some cache) head directory = some checkpoint) :
    checkpointStateOf (some cache) head checkpoint = checkpointStateOf none head checkpoint := by
  cases checkpoint with
  | none => rfl
  | some file =>
      by_cases reusable : Reusable head file cache
      · have loaded := reads.loaded
        rw [checkpoint_eq reads held faithful same opened reusable.2] at loaded
        have kept : cache.checkpointState = checkpointState := congrArg StateCache.checkpointState held
        simp only [checkpointStateOf, Option.filter_none, filter_pos (Reusable head file) reusable] at loaded ⊢
        rw [← loadCheckpointState_congr same.1 reusable.1, loaded, kept]
      · simp only [checkpointStateOf, filter_neg (Reusable head file) reusable, Option.filter_none]

/-- A cache that is hit is what the directory holds. -/
theorem Holds.hit (holds : Holds earlier cache) (faithful : Faithful earlier directory) (later : ¬ TrueGenesis head)
    (opened : openCheckpoint (some cache) head directory = some checkpoint)
    (ledgerOpened : openLedger (some cache) head directory = some ledger)
    (current : Current head checkpoint ledger cache) : Holds directory cache := by
  obtain ⟨rfl, checkpointMetadata, ledgerMetadata⟩ := current
  rcases holds with ⟨genesis, -⟩ | ⟨read, checkpointState, readFrom, state, reads, held⟩
  · exact absurd genesis later
  · have same : SameGeneration cache.head cache := ⟨rfl, rfl⟩
    obtain rfl := checkpoint_eq reads held faithful same opened checkpointMetadata
    obtain rfl := ledger_eq reads held faithful same ledgerOpened ledgerMetadata
    refine .inr ⟨read, checkpointState, readFrom, state, ?_, held⟩
    exact ⟨later, openCheckpoint_cold opened, openLedger_found ledgerOpened, reads.loaded, reads.parsed⟩

/-- The checkpoint state that a load goes on with does not depend on the cache. -/
theorem Holds.checkpointStateOf_cold (holds : Holds earlier cache) (faithful : Faithful earlier directory)
    (same : SameGeneration head cache) (opened : openCheckpoint (some cache) head directory = some checkpoint) :
    checkpointStateOf (some cache) head checkpoint = checkpointStateOf none head checkpoint := by
  rcases holds with ⟨genesis, held⟩ | ⟨read, checkpointState, readFrom, state, reads, held⟩
  · -- a cache of the first generation meets no checkpoint
    rcases openCheckpoint_pin opened with ⟨-, rfl⟩ | ⟨file, -, -, pin⟩
    · rfl
    · rw [held] at pin
      cases pin
  · exact StateFiles.checkpointStateOf_cold reads held faithful same opened

end Reuse

/-- A load with a cache that some directory held is a load without it. -/
theorem load_eq_cold {earlier next : StateDirectory} {cache loaded : StateCache} {allowTruncate : Bool}
    {times : FileTimes} (holds : Holds earlier cache) (faithful : Faithful earlier directory)
    (load : loadGenerationState allowTruncate (some cache) head directory times = some (loaded, next)) :
    loadGenerationState allowTruncate none head directory times = some (loaded, next) := by
  by_cases genesis : TrueGenesis head
  · rw [loadGenerationState, if_pos genesis] at load
    by_cases same : cache.head = head
    · subst same
      rw [filter_pos (fun other => other.head = cache.head) rfl] at load
      cases load
      rcases holds with ⟨_, held⟩ | ⟨_, _, _, _, reads, _⟩
      · exact Holds.load (.inl ⟨genesis, held⟩) allowTruncate times
      · exact absurd genesis reads.later
    · rw [filter_neg (fun other => other.head = head) same] at load
      rw [loadGenerationState, if_pos genesis, Option.filter_none]
      exact load
  · by_cases same : SameGeneration head cache
    · rw [loadGenerationState, if_neg genesis] at load
      simp only [filter_pos (SameGeneration head) same, Option.bind_eq_bind, Option.bind_eq_some_iff,
        ensure_eq_some_iff, exists_const] at load
      obtain ⟨checkpoint, opened, ledger, ledgerOpened, fits, load⟩ := load
      by_cases current : Current head checkpoint ledger cache
      · rw [filter_pos (Current head checkpoint ledger) current] at load
        cases load
        have held := holds.hit faithful genesis opened ledgerOpened current
        rw [← current.1]
        exact held.load allowTruncate times
      · rw [filter_neg (Current head checkpoint ledger) current] at load
        simp only [Option.bind_eq_some_iff] at load
        obtain ⟨checkpointState, reused, ⟨recovered, state⟩, read, installed⟩ := load
        cases installed
        rw [holds.checkpointStateOf_cold faithful same opened] at reused
        exact load_of_read genesis (openCheckpoint_cold opened) (openLedger_found ledgerOpened) fits reused read
    · -- a cache of another generation is of another head
      have other (checkpoint : Option StateFile) (ledger : StateFile) : ¬ Current head checkpoint ledger cache := by
        rintro ⟨rfl, -⟩
        exact same ⟨rfl, rfl⟩
      rw [loadGenerationState, if_neg genesis] at load ⊢
      simp only [filter_neg (SameGeneration head) same, Option.filter_none,
        filter_neg (Current head _ _) (other _ _)] at load ⊢
      exact load

/-! ### Caches that are installed -/

theorem openCheckpoint_congr {other : LedgerHead} {next : StateDirectory}
    (generation : head.generation = other.generation) (checkpoints : directory.checkpoint = next.checkpoint) :
    openCheckpoint none head directory = openCheckpoint none other next := by
  simp only [openCheckpoint, generation, checkpoints]

theorem checkpointStateOf_congr {other : LedgerHead} (version : head.contractVersion = other.contractVersion)
    (same : CheckpointIdentityEqual head other) :
    checkpointStateOf none head checkpoint = checkpointStateOf none other checkpoint := by
  cases checkpoint with
  | none => simp only [checkpointStateOf, genesisState, version]
  | some file => simp only [checkpointStateOf, Option.filter_none, loadCheckpointState_congr version same]

/-- The checkpoint part of a cache is of the checkpoint that is opened at its head. -/
theorem Holds.checkpointPart {cache : StateCache} (holds : Holds directory cache) :
    ∃ checkpoint, openCheckpoint none cache.head directory = some checkpoint ∧
      checkpointStateOf none cache.head checkpoint = some cache.checkpointState ∧
      cache.checkpointMetadata = checkpoint.map (·.metadata) ∧
      cache.checkpointPin = checkpoint.map (·.identity) := by
  rcases holds with ⟨genesis, held⟩ | ⟨checkpoint, checkpointState, ledger, state, reads, held⟩
  · refine ⟨none, if_pos genesis.1, ?_, congrArg StateCache.checkpointMetadata held,
      congrArg StateCache.checkpointPin held⟩
    have kept : cache.checkpointState = genesisState cache.head := congrArg StateCache.checkpointState held
    rw [kept]
    rfl
  · refine ⟨checkpoint, reads.opened, ?_, congrArg StateCache.checkpointMetadata held,
      congrArg StateCache.checkpointPin held⟩
    have kept : cache.checkpointState = checkpointState := congrArg StateCache.checkpointState held
    rw [kept]
    exact reads.loaded

theorem identity_of_appended {before after : LedgerHead} (appended : Appended before after) :
    CheckpointIdentityEqual after before :=
  ⟨appended.generation, appended.baseHeadChecksum, appended.checkpointStateRevision, appended.checkpointFrameCount,
    appended.checkpointChecksum, appended.checkpointBytes⟩

/-- The cache that an append installs is what the directory then holds. -/
theorem Holds.appended {cache next : StateCache} {event : DeltaEvent} {created : FileIdentity} {times : FileTimes}
    {after : StateDirectory} (holds : Holds directory cache)
    (appends : appendDeltaEvent cache event directory created times = some (next, after)) : Holds after next := by
  simp only [appendDeltaEvent, Option.bind_eq_bind, Option.bind_eq_some_iff, ensure_eq_some_iff,
    exists_const] at appends
  obtain ⟨encoded, encodes, -, ledger, -, -, nextHead, head, parsed, parses, whole, installed⟩ := appends
  cases installed
  have appended := appendedHead_eq_some encodes head
  obtain ⟨checkpoint, opened, loaded, metadata, pin⟩ := holds.checkpointPart
  refine .inr ⟨checkpoint, cache.checkpointState, { ledger with times, bytes := ledger.bytes ++ encoded.bytes },
    parsed.state, ?_, ?_⟩
  · constructor
    case later =>
      intro genesis
      have counted := appended.stateRevision
      rw [genesis.2] at counted
      exact absurd counted (Nat.succ_ne_zero _).symm
    case opened =>
      rw [← opened]
      exact openCheckpoint_congr appended.generation rfl
    case found =>
      dsimp only [StateDirectory.setLedger]
      rw [appended.generation, Function.update_self]
    case loaded =>
      rw [← loaded]
      exact checkpointStateOf_congr appended.contractVersion (identity_of_appended appended)
    case parsed => exact ⟨parsed, parses, rfl, whole⟩
  · rw [metadata, pin]
    rfl

/-- The cache that a new generation starts with is what the directory then holds. -/
theorem holds_of_start {expectedHead nextHead : LedgerHead} {file : StateFile} {next : StateCache}
    {after : StateDirectory} (follows : nextHead.generation.val = expectedHead.generation.val + 1)
    (noFrames : nextHead.frameCount.val = 0)
    (starts : startGeneration expectedHead nextHead file ledger directory = some (next, after)) :
    next.head = nextHead ∧ Holds after next := by
  simp only [startGeneration, Option.bind_eq_bind, Option.bind_eq_some_iff, ensure_eq_some_iff,
    exists_const] at starts
  obtain ⟨-, empty, loaded, loads, installed⟩ := starts
  cases installed
  have later : nextHead.generation.val ≠ 0 := by
    rw [follows]
    exact Nat.succ_ne_zero _
  have other : nextHead.generation ≠ expectedHead.generation := by
    intro same
    rw [same] at follows
    exact absurd follows (Nat.succ_ne_self _).symm
  obtain ⟨version, revision⟩ := loadCheckpointState_anchors loads
  obtain ⟨-, -, -, -, -, room⟩ := nextHead.laterGeneration later
  rw [if_pos noFrames] at room
  obtain ⟨ordered, -, counted, -⟩ := nextHead.consistent
  have unmoved : nextHead.checkpointStateRevision = nextHead.stateRevision := by
    apply Subtype.ext
    omega
  refine ⟨rfl, .inr ⟨some file, loaded, ledger, loaded, ?_, rfl⟩⟩
  constructor
  case later => exact fun genesis => later genesis.1
  case opened =>
    refine (if_neg later).trans ?_
    simp [StateDirectory.cleanupGeneration, StateDirectory.setCheckpoint, StateDirectory.setLedger,
      Function.update_of_ne other, cacheOf, ensure_pos]
  case found =>
    simp [StateDirectory.cleanupGeneration, StateDirectory.setLedger, Function.update_of_ne other, cacheOf]
  case loaded => exact loads
  case parsed =>
    rw [empty]
    exact ⟨_, parse_empty version (revision.trans unmoved) noFrames room.1 room.2.symm, rfl, rfl⟩

/-- A rotation goes on to the next generation without frames. -/
theorem rotation_starts {expectedHead : LedgerHead} {result : Rotation}
    (rotated : rotation expectedHead state = some result) :
    result.head.generation.val = expectedHead.generation.val + 1 ∧ result.head.frameCount.val = 0 := by
  obtain ⟨_, _, _, -, following, record⟩ := rotation_record rotated
  rw [record]
  exact ⟨following, rfl⟩

theorem holds_of_rotate {cache next : StateCache} {file ledger : FileIdentity} {times : FileTimes}
    {after : StateDirectory} (rotates : rotateGeneration cache directory file ledger times = some (next, after)) :
    Holds after next := by
  obtain ⟨rotated, rotation, starts⟩ := Option.bind_eq_some_iff.mp rotates
  obtain ⟨follows, noFrames⟩ := rotation_starts rotation
  exact (holds_of_start follows noFrames starts).2

/-! ### Runs -/

/-- The metadata of a file tell its bytes apart in all directories of a run. -/
def FaithfulHistory (history : List StateDirectory) : Prop :=
  ∀ earlier ∈ history, ∀ later ∈ history, Faithful earlier later

/-- What a run keeps: the cache was held by some directory of the run, and is held by the present one while an
operation goes on with it. -/
structure Kept (history : List StateDirectory) (provider : Provider) : Prop where
  present : provider.directory ∈ history
  cached : ∀ cache, provider.cache = some cache → ∃ earlier ∈ history, Holds earlier cache
  holding : provider.holding = true →
    ∃ cache, provider.cache = some cache ∧ cache.head = provider.head ∧ Holds provider.directory cache

variable {history : List StateDirectory} {provider next : Provider}

/-- A provider that has just installed a cache. -/
theorem kept_of_holds {cache : StateCache} (holds : Holds directory cache) (at_head : cache.head = head) :
    Kept (directory :: history) { directory, head, cache := some cache, holding := true } where
  present := List.mem_cons_self
  cached := by
    rintro _ same
    obtain rfl := Option.some.inj same
    exact ⟨directory, List.mem_cons_self, holds⟩
  holding := fun _ => ⟨cache, rfl, at_head, holds⟩

/-- Every load of a run is a load without the cache. -/
theorem Kept.load_cold {allowTruncate : Bool} {times : FileTimes} {cache : StateCache}
    (kept : Kept history provider) (faithful : FaithfulHistory history)
    (loads : loadGenerationState allowTruncate provider.cache provider.head provider.directory times =
      some (cache, directory)) :
    loadGenerationState allowTruncate none provider.head provider.directory times = some (cache, directory) := by
  cases form : provider.cache with
  | none =>
      rw [form] at loads
      exact loads
  | some old =>
      rw [form] at loads
      obtain ⟨earlier, met, holds⟩ := kept.cached old form
      exact load_eq_cold holds (faithful earlier met provider.directory kept.present) loads

theorem Kept.step (kept : Kept history provider) (faithful : FaithfulHistory history) (step : Step provider next) :
    Kept (next.directory :: history) next := by
  cases step with
  | load loads =>
      obtain ⟨at_head, holds⟩ := holds_of_load (kept.load_cold faithful loads)
      exact kept_of_holds holds at_head
  | append holding current appends =>
      obtain ⟨cache, same, -, holds⟩ := kept.holding holding
      obtain rfl := Option.some.inj (current.symm.trans same)
      exact kept_of_holds (holds.appended appends) rfl
  | rotate holding current rotates => exact kept_of_holds (holds_of_rotate rotates) rfl
  | adopt follows noFrames starts =>
      obtain ⟨at_head, holds⟩ := holds_of_start follows noFrames starts
      exact kept_of_holds holds at_head
  | others old =>
      refine ⟨List.mem_cons_self, ?_, fun holding => Bool.noConfusion holding⟩
      rintro cache rfl
      rcases old with same | dropped
      · obtain ⟨earlier, met, holds⟩ := kept.cached cache same.symm
        exact ⟨earlier, List.mem_cons_of_mem _ met, holds⟩
      · cases dropped

theorem Run.kept (run : Run history provider) (faithful : FaithfulHistory history) : Kept history provider := by
  induction run with
  | start directory head =>
      refine ⟨List.mem_singleton_self _, ?_, fun holding => Bool.noConfusion holding⟩
      intro cache present
      cases present
  | step _ step ih =>
      apply (ih _).step _ step
      all_goals
        intro earlier before later after
        exact faithful earlier (List.mem_cons_of_mem _ before) later (List.mem_cons_of_mem _ after)

/-- In a run of a provider among others, where the metadata of a file tell its bytes apart, a load with the cache of
the provider is the load of a fresh provider. What an operation goes on with, after its load and after every append,
rotation and adoption, is what a fresh provider would load at the head. -/
theorem cachedLoad_eq_coldLoad (run : Run history provider) (faithful : FaithfulHistory history) :
    (∀ allowTruncate times cache directory,
      loadGenerationState allowTruncate provider.cache provider.head provider.directory times =
        some (cache, directory) →
      loadGenerationState allowTruncate none provider.head provider.directory times = some (cache, directory)) ∧
    (provider.holding = true → ∃ cache, provider.cache = some cache ∧ ∀ allowTruncate times,
      loadGenerationState allowTruncate none provider.head provider.directory times =
        some (cache, provider.directory)) := by
  have kept := run.kept faithful
  constructor
  · intro allowTruncate times cache directory loads
    exact kept.load_cold faithful loads
  · intro holding
    obtain ⟨cache, current, at_head, holds⟩ := kept.holding holding
    refine ⟨cache, current, ?_⟩
    intro allowTruncate times
    rw [← at_head]
    exact holds.load allowTruncate times

/-! ### A provision, an attach and a rotation -/

/-- An append to the files is one to their bytes. -/
theorem appendDeltaEvent_of_ledger {cache : StateCache} {generation next : GenerationCache} {event : DeltaEvent}
    {created : FileIdentity} {times : FileTimes} {ledger : StateFile} {directory : StateDirectory}
    (head : cache.head = generation.head) (checkpointState : cache.checkpointState = generation.checkpointState)
    (opened : openForAppend cache directory created times = some ledger) (bytes : ledger.bytes = generation.ledger)
    (loaded : Loaded generation) (appends : ProviderState.appendDeltaEvent generation event = some next) :
    appendDeltaEvent cache event directory created times =
      some ({ cache with
        head := next.head
        ledgerMetadata := some { ledger with times, bytes := next.ledger : StateFile }.metadata
        ledgerPin := some ledger.identity
        state := next.state }, directory.setLedger cache.head.generation { ledger with times, bytes := next.ledger }) := by
  simp only [ProviderState.appendDeltaEvent, Option.bind_eq_bind, Option.bind_eq_some_iff, ensure_eq_some_iff,
    exists_const, Option.some.injEq] at appends
  obtain ⟨encoded, encodes, fits, nextHead, following, state, parses, rfl⟩ := appends
  obtain ⟨_, anchored, -, noTail⟩ := parseActiveLedger_eq_some_iff.mp loaded
  obtain ⟨parsed, again, rfl, whole⟩ := parseActiveLedger_eq_some_iff.mp parses
  have length := whole_length anchored noTail
  rw [← head] at encodes fits following length
  rw [← bytes] at again length
  rw [← checkpointState] at again
  rw [← bytes]
  exact read_then encodes (read_then (ensure_pos fits) (read_then opened (read_then (ensure_pos length)
    (read_then following (read_then again (read_then (ensure_pos whole) rfl))))))

/-- A load of unchanged files is a hit. -/
theorem load_of_current {cache : StateCache} {directory : StateDirectory} {checkpoint : Option StateFile}
    {ledger : StateFile} (later : ¬ TrueGenesis cache.head)
    (opened : openCheckpoint (some cache) cache.head directory = some checkpoint)
    (ledgerOpened : openLedger (some cache) cache.head directory = some ledger)
    (size : ledger.bytes.length = cache.head.ledgerBytes.val)
    (current : Current cache.head checkpoint ledger cache) (allowTruncate : Bool) (times : FileTimes) :
    loadGenerationState allowTruncate (some cache) cache.head directory times = some (cache, directory) := by
  have fits : (if allowTruncate then cache.head.ledgerBytes.val ≤ ledger.bytes.length
      else ledger.bytes.length = cache.head.ledgerBytes.val) ∧ ledger.bytes.length ≤ maxLedgerBytes := by
    refine ⟨?_, size.trans_le cache.head.ledgerBytes.property⟩
    cases allowTruncate with
    | false => exact size
    | true => exact size.ge
  have same : SameGeneration cache.head cache := ⟨rfl, rfl⟩
  rw [loadGenerationState, if_neg later]
  simp only [filter_pos (SameGeneration cache.head) same, opened, ledgerOpened, Option.bind_eq_bind, Option.bind_some,
    ensure_pos fits, filter_pos (Current cache.head checkpoint ledger) current]

/-- A directory without files. -/
def emptyDirectory : StateDirectory where
  checkpoint := fun _ => none
  ledger := fun _ => none

/-- The provider that has loaded the state without files. -/
def genesisProvider : Provider where
  directory := emptyDirectory
  head := (genesisCache .v3).head
  cache := some (genesisStateCache (genesisCache .v3).head)
  holding := true

/-- The times of the write with this number. -/
def timesOf (count : Nat) : FileTimes := { ctimeNs := count, mtimeNs := count }

/-- The ledger behind the append with this number. -/
def ledgerFile (count : Nat) (bytes : Bytes) : StateFile where
  identity := { dev := 1, ino := 1 }
  times := timesOf count
  bytes := bytes

/-- The provider behind the append with this number. -/
def heldProvider (count : Nat) (generation : GenerationCache) : Provider where
  directory := emptyDirectory.setLedger ⟨0, uint64_zero⟩ (ledgerFile count generation.ledger)
  head := generation.head
  cache := some (cacheOf generation.head none ProviderState.genesisState (ledgerFile count generation.ledger) generation.state)
  holding := true

section Held

variable {generation next : GenerationCache} {count : Nat} {lastChecksum : Option Checksum} {event : DeltaEvent}

theorem held_generation (h : Stands generation count lastChecksum) :
    generation.head.generation = ⟨0, uint64_zero⟩ := Subtype.ext h.generation

theorem held_later (h : Stands generation (count + 1) lastChecksum) : ¬ TrueGenesis generation.head := by
  rintro ⟨-, revision⟩
  exact absurd (h.stateRevision.symm.trans revision) (Nat.succ_ne_zero _)

theorem genesisProvider_append (appends : ProviderState.appendDeltaEvent (genesisCache .v3) event = some next) :
    Step genesisProvider (heldProvider 1 next) := by
  have opened : openForAppend (genesisStateCache (genesisCache .v3).head) emptyDirectory { dev := 1, ino := 1 }
      (timesOf 1) = some (ledgerFile 1 []) := rfl
  exact .append rfl rfl (@appendDeltaEvent_of_ledger (genesisStateCache (genesisCache .v3).head) _ _ _ _ _
    (ledgerFile 1 []) _ rfl rfl opened rfl (backed_genesis .v3).loaded appends)

theorem heldProvider_append (h : Stands generation (count + 1) lastChecksum)
    (appends : ProviderState.appendDeltaEvent generation event = some next) :
    Step (heldProvider (count + 1) generation) (heldProvider (count + 2) next) := by
  let ledger := ledgerFile (count + 1) generation.ledger
  let cache := cacheOf generation.head none ProviderState.genesisState ledger generation.state
  have found : (heldProvider (count + 1) generation).directory.ledger generation.head.generation = some ledger := by
    rw [held_generation h]
    show Function.update emptyDirectory.ledger ⟨0, uint64_zero⟩ (some ledger) ⟨0, uint64_zero⟩ = _
    rw [Function.update_self]
  have opened : openForAppend cache (heldProvider (count + 1) generation).directory { dev := 1, ino := 1 }
      (timesOf (count + 2)) = some ledger :=
    (if_neg (held_later h)).trans (read_then found (read_then (ensure_pos rfl) rfl))
  have directory : (heldProvider (count + 1) generation).directory.setLedger generation.head.generation
      (ledgerFile (count + 2) next.ledger) = (heldProvider (count + 2) next).directory := by
    rw [held_generation h]
    exact congrArg (StateDirectory.mk _) (Function.update_idem _ _ _)
  have written : appendDeltaEvent cache event (heldProvider (count + 1) generation).directory { dev := 1, ino := 1 }
      (timesOf (count + 2)) = some (cacheOf next.head none ProviderState.genesisState
        (ledgerFile (count + 2) next.ledger) next.state, (heldProvider (count + 2) next).directory) := by
    rw [← directory]
    exact @appendDeltaEvent_of_ledger cache generation next event _ _ ledger _ rfl h.checkpointState.symm opened rfl
      h.reachable.backed.loaded appends
  exact .append rfl rfl written

/-- Behind its appends a provider hits its cache. -/
theorem heldProvider_hit (h : Stands generation (count + 1) lastChecksum) (allowTruncate : Bool) (times : FileTimes) :
    loadGenerationState allowTruncate (heldProvider (count + 1) generation).cache generation.head
        (heldProvider (count + 1) generation).directory times =
      some (cacheOf generation.head none ProviderState.genesisState (ledgerFile (count + 1) generation.ledger)
        generation.state, (heldProvider (count + 1) generation).directory) := by
  obtain ⟨_, anchored, -, noTail⟩ := parseActiveLedger_eq_some_iff.mp h.reachable.backed.loaded
  let ledger := ledgerFile (count + 1) generation.ledger
  have found : (heldProvider (count + 1) generation).directory.ledger generation.head.generation = some ledger := by
    rw [held_generation h]
    show Function.update emptyDirectory.ledger ⟨0, uint64_zero⟩ (some ledger) ⟨0, uint64_zero⟩ = _
    rw [Function.update_self]
  exact @load_of_current (cacheOf generation.head none ProviderState.genesisState ledger generation.state) _ none ledger
    (held_later h) (if_pos h.generation) (read_then found (read_then (ensure_pos rfl) rfl))
    (whole_length anchored noTail) ⟨rfl, rfl, rfl⟩ allowTruncate times

end Held

/-- The checkpoint and the ledger of the generation that a rotation behind three appends starts. -/
def turnedCheckpoint (bytes : Bytes) : StateFile where
  identity := { dev := 1, ino := 2 }
  times := timesOf 4
  bytes := bytes

def turnedLedger : StateFile where
  identity := { dev := 1, ino := 3 }
  times := timesOf 4
  bytes := []

def turnedDirectory (generation : Uint64) (checkpoint : Bytes) : StateDirectory :=
  (emptyDirectory.setCheckpoint generation (turnedCheckpoint checkpoint)).setLedger
    generation turnedLedger

/-- The provider behind that rotation. -/
def turnedProvider (result : Rotation) : Provider where
  directory := turnedDirectory result.head.generation result.checkpoint.bytes
  head := result.head
  cache := some (cacheOf result.head
    (some (turnedCheckpoint result.checkpoint.bytes)) result.state
    turnedLedger result.state)
  holding := true

section Turned

variable {generation : GenerationCache} {lastChecksum : Option Checksum} {result : Rotation}

theorem rotation_size {expectedHead : LedgerHead} {state : GenerationState}
    (rotated : rotation expectedHead state = some result) :
    result.checkpoint.bytes.length = result.head.checkpointBytes.val := by
  simp only [rotation, Option.bind_eq_bind, Option.bind_eq_some_iff, ensure_eq_some_iff, exists_const,
    Option.some.injEq] at rotated
  obtain ⟨-, generation, -, checkpoint, written, head, made, -, -, -, -, -, -, -, rfl⟩ := rotated
  simp only [rotatedHead, Option.bind_eq_bind, Option.bind_eq_some_iff, Option.dite_none_right_eq_some] at made
  obtain ⟨_, -, _, made⟩ := made
  simp only [writeCheckpointFrames, Option.bind_eq_bind, Option.bind_eq_some_iff,
    Option.dite_none_right_eq_some, ensure_eq_some_iff, exists_const, Option.some.injEq] at written
  obtain ⟨_, -, _, writer, -, -, size, rfl⟩ := written
  show writer.bytes.length = head.toHeadRecord.checkpointBytes.val
  rw [ledgerHead_eq_some made]

theorem heldProvider_rotate (h : Stands generation 3 lastChecksum)
    (rotated : rotation generation.head generation.state = some result)
    (loaded : parseCheckpointStream result.checkpoint.bytes result.head = some result.state) :
    Step (heldProvider 3 generation) (turnedProvider result) := by
  have following := (rotation_starts rotated).1
  rw [h.generation] at following
  have other : result.head.generation ≠ ⟨0, uint64_zero⟩ := by
    intro same
    rw [same] at following
    cases following
  have noLedger : (heldProvider 3 generation).directory.ledger result.head.generation = none := by
    show Function.update emptyDirectory.ledger ⟨0, uint64_zero⟩ _ result.head.generation = none
    rw [Function.update_of_ne other]
    rfl
  have checkpoint : loadCheckpointState (turnedCheckpoint result.checkpoint.bytes)
      result.head = some result.state := read_then (ensure_pos (rotation_size rotated)) loaded
  have cleaned : (((heldProvider 3 generation).directory.setCheckpoint result.head.generation
      (turnedCheckpoint result.checkpoint.bytes)).setLedger
      result.head.generation turnedLedger).cleanupGeneration
      generation.head.generation = turnedDirectory result.head.generation result.checkpoint.bytes := by
    rw [held_generation h]
    have noCheckpoint : Function.update emptyDirectory.checkpoint ⟨0, uint64_zero⟩ none = emptyDirectory.checkpoint :=
      Function.update_eq_self _ _
    have noFile : Function.update emptyDirectory.ledger ⟨0, uint64_zero⟩ none = emptyDirectory.ledger :=
      Function.update_eq_self _ _
    refine congrArg₂ StateDirectory.mk ?_ ?_
    · show Function.update (Function.update emptyDirectory.checkpoint result.head.generation _) ⟨0, uint64_zero⟩ none = _
      rw [Function.update_comm other, noCheckpoint]
      rfl
    · show Function.update (Function.update (Function.update emptyDirectory.ledger ⟨0, uint64_zero⟩ _)
        result.head.generation _) ⟨0, uint64_zero⟩ none = _
      rw [Function.update_comm other, Function.update_idem, noFile]
      rfl
  have turns : rotateGeneration (cacheOf generation.head none ProviderState.genesisState (ledgerFile 3 generation.ledger)
      generation.state) (heldProvider 3 generation).directory { dev := 1, ino := 2 } { dev := 1, ino := 3 } (timesOf 4) =
      some (cacheOf result.head (some (turnedCheckpoint result.checkpoint.bytes))
        result.state turnedLedger result.state,
        turnedDirectory result.head.generation result.checkpoint.bytes) := by
    rw [← cleaned]
    exact read_then rotated (read_then (ensure_pos ⟨rfl, by rw [noLedger]; rfl⟩)
      (read_then (ensure_pos rfl) (read_then checkpoint rfl)))
  exact .rotate rfl rfl turns

/-- Behind its rotation a provider hits its cache again. -/
theorem turnedProvider_hit (rotated : rotation generation.head generation.state = some result) (allowTruncate : Bool)
    (times : FileTimes) :
    loadGenerationState allowTruncate (turnedProvider result).cache result.head (turnedProvider result).directory times =
      some (cacheOf result.head
        (some (turnedCheckpoint result.checkpoint.bytes)) result.state
        turnedLedger result.state,
        (turnedProvider result).directory) := by
  obtain ⟨_, _, _, -, following, record⟩ := rotation_record rotated
  have later : result.head.generation.val ≠ 0 := by
    rw [record]
    dsimp only
    rw [following]
    exact Nat.succ_ne_zero _
  have checkpoint : (turnedProvider result).directory.checkpoint result.head.generation = some
      (turnedCheckpoint result.checkpoint.bytes) := by
    show Function.update emptyDirectory.checkpoint result.head.generation _ result.head.generation = _
    rw [Function.update_self]
  have ledger : (turnedProvider result).directory.ledger result.head.generation = some
      turnedLedger := by
    show Function.update emptyDirectory.ledger result.head.generation _ result.head.generation = _
    rw [Function.update_self]
  have noBytes : 0 = result.head.ledgerBytes.val := by rw [record]
  exact @load_of_current (cacheOf result.head
    (some (turnedCheckpoint result.checkpoint.bytes)) result.state
    turnedLedger result.state) _ _
    turnedLedger (fun genesis => later genesis.1)
    ((if_neg later).trans (read_then checkpoint (read_then (ensure_pos rfl) rfl)))
    (read_then ledger (read_then (ensure_pos rfl) rfl)) noBytes ⟨rfl, rfl, rfl⟩ allowTruncate times

end Turned

/-- The times of a file tell its bytes. -/
def Dated (checkpoints ledgers : Nat → Bytes) (directory : StateDirectory) : Prop :=
  ∀ generation, (∀ file ∈ directory.checkpoint generation, file.bytes = checkpoints file.times.mtimeNs) ∧
    ∀ file ∈ directory.ledger generation, file.bytes = ledgers file.times.mtimeNs

section Dated

variable {checkpoints ledgers : Nat → Bytes} {directory : StateDirectory} {file : StateFile} {generation : Uint64}

theorem dated_empty : Dated checkpoints ledgers emptyDirectory := by
  intro generation
  constructor
  · intro file present
    cases present
  · intro file present
    cases present

theorem Dated.setCheckpoint (h : Dated checkpoints ledgers directory)
    (bytes : file.bytes = checkpoints file.times.mtimeNs) :
    Dated checkpoints ledgers (directory.setCheckpoint generation file) := by
  refine fun other => ⟨fun found present => ?_, (h other).2⟩
  change found ∈ Function.update directory.checkpoint generation (some file) other at present
  by_cases same : other = generation
  · subst same
    rw [Function.update_self] at present
    obtain rfl := Option.some.inj present
    exact bytes
  · rw [Function.update_of_ne same] at present
    exact (h other).1 found present

theorem Dated.setLedger (h : Dated checkpoints ledgers directory) (bytes : file.bytes = ledgers file.times.mtimeNs) :
    Dated checkpoints ledgers (directory.setLedger generation file) := by
  refine fun other => ⟨(h other).1, fun found present => ?_⟩
  change found ∈ Function.update directory.ledger generation (some file) other at present
  by_cases same : other = generation
  · subst same
    rw [Function.update_self] at present
    obtain rfl := Option.some.inj present
    exact bytes
  · rw [Function.update_of_ne same] at present
    exact (h other).2 found present

theorem faithful_of_dated {history : List StateDirectory}
    (dated : ∀ directory ∈ history, Dated checkpoints ledgers directory) : FaithfulHistory history := by
  intro earlier before later after generation
  constructor
  · intro f first g second _ metadata
    have times : f.times.mtimeNs = g.times.mtimeNs := congrArg MetadataSnapshot.mtimeNs metadata
    rw [(dated earlier before generation).1 f first, (dated later after generation).1 g second, times]
  · intro f first g second _ metadata
    have times : f.times.mtimeNs = g.times.mtimeNs := congrArg MetadataSnapshot.mtimeNs metadata
    rw [(dated earlier before generation).2 f first, (dated later after generation).2 g second, times]

end Dated

/-- A provider that goes on without its lock and keeps its cache. -/
def Provider.released (provider : Provider) : Provider := { provider with holding := false }

theorem released_step (provider : Provider) : Step provider provider.released := .others (.inl rfl)

/-- The provision and the attach of a first storage are appended, and the cache is kept. It is hit by the next
operation, which rotates, and the cache of the rotation is hit again. -/
theorem cachedLoad_eq_coldLoad_rotated : ∃ cache result appended turned,
    cache.state = attachState ∧ rotation cache.head cache.state = some result ∧
    Run appended (heldProvider 3 cache).released ∧ Run turned (turnedProvider result).released ∧
    appended <:+ turned ∧ FaithfulHistory turned ∧
    (∀ allowTruncate times,
      loadGenerationState allowTruncate none cache.head (heldProvider 3 cache).directory times =
        some (cacheOf cache.head none ProviderState.genesisState (ledgerFile 3 cache.ledger) cache.state,
          (heldProvider 3 cache).directory)) ∧
    ∀ allowTruncate times,
      loadGenerationState allowTruncate none result.head (turnedProvider result).directory times =
        some (cacheOf result.head (some (turnedCheckpoint result.checkpoint.bytes)) result.state turnedLedger
          result.state, (turnedProvider result).directory) := by
  obtain ⟨first, second, cache, ledger⟩ := exists_attachLedger
  have three := ledger.three
  obtain ⟨result, rotated, transparent⟩ := attachState_run.rotates (ledger.state ▸ three.reachable.backed.anchors)
    (three.canAdvance (by decide)) attach_capacity
  rw [← ledger.state] at rotated
  have opens : loadGenerationState true none (genesisCache .v3).head emptyDirectory (timesOf 0) =
      some (genesisStateCache (genesisCache .v3).head, emptyDirectory) := rfl
  have loaded : Run [emptyDirectory, emptyDirectory] genesisProvider :=
    (Run.start emptyDirectory (genesisCache .v3).head).step (.load opens)
  have appended := (((loaded.step (genesisProvider_append ledger.opened)).step
    (heldProvider_append ledger.one ledger.provisioned)).step
      (heldProvider_append ledger.two ledger.prepared)).step (released_step (heldProvider 3 cache))
  have hit : Step (heldProvider 3 cache).released (heldProvider 3 cache) :=
    .load (heldProvider_hit three true (timesOf 4))
  have turned := ((appended.step hit).step (heldProvider_rotate three rotated transparent.loaded)).step
    (released_step (turnedProvider result))
  -- every write has times of its own
  let checkpoints (_ : Nat) : Bytes := result.checkpoint.bytes
  let ledgers (count : Nat) : Bytes := [[], first.ledger, second.ledger, cache.ledger].getD count []
  have rotatedFiles : Dated checkpoints ledgers (turnedProvider result).directory :=
    (dated_empty.setCheckpoint rfl).setLedger rfl
  have firstFiles : Dated checkpoints ledgers (heldProvider 1 first).directory := dated_empty.setLedger rfl
  have secondFiles : Dated checkpoints ledgers (heldProvider 2 second).directory := dated_empty.setLedger rfl
  have thirdFiles : Dated checkpoints ledgers (heldProvider 3 cache).directory := dated_empty.setLedger rfl
  have faithful := faithful_of_dated (List.forall_mem_cons.mpr ⟨rotatedFiles, List.forall_mem_cons.mpr ⟨rotatedFiles,
    List.forall_mem_cons.mpr ⟨thirdFiles, List.forall_mem_cons.mpr ⟨thirdFiles, List.forall_mem_cons.mpr ⟨thirdFiles,
      List.forall_mem_cons.mpr ⟨secondFiles, List.forall_mem_cons.mpr ⟨firstFiles, List.forall_mem_cons.mpr ⟨dated_empty,
        List.forall_mem_cons.mpr ⟨dated_empty, List.forall_mem_nil _⟩⟩⟩⟩⟩⟩⟩⟩⟩)
  have suffix : _ <:+ _ := List.suffix_append [(turnedProvider result).directory, (turnedProvider result).directory,
    (heldProvider 3 cache).directory] [(heldProvider 3 cache).directory, (heldProvider 3 cache).directory,
      (heldProvider 2 second).directory, (heldProvider 1 first).directory, emptyDirectory, emptyDirectory]
  refine ⟨cache, result, _, _, ledger.state, rotated, appended, turned, suffix, faithful, ?_, ?_⟩
  · intro allowTruncate times
    refine (cachedLoad_eq_coldLoad appended ?_).1 allowTruncate times _ _ (heldProvider_hit three allowTruncate times)
    exact fun earlier before later after => faithful earlier (suffix.subset before) later (suffix.subset after)
  · intro allowTruncate times
    exact (cachedLoad_eq_coldLoad turned faithful).1 allowTruncate times _ _
      (turnedProvider_hit rotated allowTruncate times)

end PortableCodex.ProviderState.StateFiles
