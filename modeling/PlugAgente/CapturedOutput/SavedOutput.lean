import PlugAgente.CapturedOutput.Lossless
import PlugAgente.Machine.Transition

/-!
# Captured output from save to save

`saveExecution` and `getExecution` of the action repository, as far as stdout and stderr go.  A
short text is in a column of the execution row, a long one in chunk rows, and a flag of the row
says which of them counts.  A save takes the flag from the execution that is saved, raises it for
a long text, and never lowers it; it replaces the chunk rows for a long text only.

`captures` are the histories of saves, with the text that each stream is meant to have.
`Careful` is what a save has to meet so that it is kept, and `Held` the invariant.
-/

namespace PlugAgente.CapturedOutput

open Dart Dart.Utf8

/-- stdout and stderr. -/
inductive CapturedStream where
  | stdout
  | stderr
  deriving DecidableEq, Repr

/-- `streamNameForStdout` and `streamNameForStderr`. -/
def CapturedStream.name : CapturedStream → String
  | .stdout => "stdout"
  | .stderr => "stderr"

theorem CapturedStream.name_inj {a b : CapturedStream} : a.name = b.name ↔ a = b := by
  cases a <;> cases b <;> simp [name]

/-- `AgentActionExecution`: `stdoutText` and `stderrText` are its texts, `stdoutStoredInChunks`
and `stderrStoredInChunks` its flags. -/
structure AgentActionExecution where
  id : String
  text : CapturedStream → Option String
  storedInChunks : CapturedStream → Bool

/-- The texts and flags of an execution row. -/
structure ExecutionRow where
  text : CapturedStream → Option String
  storedInChunks : CapturedStream → Bool

/-- The two tables. -/
structure CaptureStore where
  rows : String → Option ExecutionRow := fun _ => none
  chunks : List ChunkRow := []

/-- What the environment variables of the limits hold. -/
structure CaptureLimits where
  inlineParsed : Option Int := none
  chunkParsed : Option Int := none

def CaptureLimits.inlineMaxUtf8Bytes (limits : CaptureLimits) : Nat :=
  positiveInt limits.inlineParsed (16 * 1024) 1024 (256 * 1024)

/-- `chunkPayloadUtf8Bytes`. -/
def CaptureLimits.chunkBytes (limits : CaptureLimits) : Nat :=
  chunkPayloadUtf8Bytes limits.chunkParsed

def shouldSpillToChunks (limits : CaptureLimits) (text : String) : Bool :=
  limits.inlineMaxUtf8Bytes < (utf8Encode text).length

/-- There is a text, and it spills. -/
def AgentActionExecution.spills (limits : CaptureLimits) (execution : AgentActionExecution)
    (stream : CapturedStream) : Bool :=
  (execution.text stream).any (shouldSpillToChunks limits)

def prepareExecutionCapturedOutputState (limits : CaptureLimits)
    (execution : AgentActionExecution) : AgentActionExecution :=
  { execution with
    text := fun stream => if execution.spills limits stream then none else execution.text stream
    storedInChunks := fun stream =>
      if execution.spills limits stream then true else execution.storedInChunks stream }

/-- A row that is written: a null column is absent, so that an earlier row keeps what it has. -/
def ExecutionRow.upsert (before : Option ExecutionRow) (execution : AgentActionExecution) :
    ExecutionRow where
  text stream := (execution.text stream).or (before.bind fun row => row.text stream)
  storedInChunks := execution.storedInChunks

namespace CaptureStore

def insertOnConflictUpdate (store : CaptureStore) (execution : AgentActionExecution) :
    CaptureStore :=
  { store with
    rows := Function.update store.rows execution.id
      (some (.upsert (store.rows execution.id) execution)) }

/-- `_persistExecutionCapturedOutputChunks`, for one stream. -/
def persistStream (limits : CaptureLimits) (execution : AgentActionExecution)
    (stream : CapturedStream) (chunks : List ChunkRow) : Except FormatException (List ChunkRow) :=
  match execution.text stream with
  | none => .ok chunks
  | some text =>
    if shouldSpillToChunks limits text then
      replaceStream limits.chunkBytes chunks execution.id stream.name text
    else .ok chunks

def persistExecutionCapturedOutputChunks (limits : CaptureLimits)
    (execution : AgentActionExecution) (chunks : List ChunkRow) :
    Except FormatException (List ChunkRow) :=
  match persistStream limits execution .stdout chunks with
  | .error e => .error e
  | .ok chunks => persistStream limits execution .stderr chunks

def loadConcatenatedStream (store : CaptureStore) (executionId : String)
    (stream : CapturedStream) : Option String :=
  let rows := (store.chunks.filter (ChunkRow.isOf executionId stream.name)).mergeSort
    fun a b => decide (a.chunkIndex ≤ b.chunkIndex)
  if rows.isEmpty then none else some (String.join (rows.map ChunkRow.payload))

/-- `_hydrateAfterSave`; `copyWith` keeps a text for which it is given none. -/
def hydrateAfterSave (store : CaptureStore) (finalState original : AgentActionExecution) :
    AgentActionExecution :=
  { finalState with text := fun stream =>
      let hydrated := (original.text stream).or (finalState.text stream)
      if finalState.storedInChunks stream && (original.text stream).isNone then
        (store.loadConcatenatedStream original.id stream).or hydrated
      else hydrated }

/-- `saveExecution`: the transaction, and what is returned after it. -/
def saveExecution (limits : CaptureLimits) (store : CaptureStore)
    (execution : AgentActionExecution) :
    Except FormatException (AgentActionExecution × CaptureStore) :=
  let preparedState := prepareExecutionCapturedOutputState limits execution
  let inserted := store.insertOnConflictUpdate preparedState
  match persistExecutionCapturedOutputChunks limits execution inserted.chunks with
  | .error e => .error e
  | .ok chunks =>
    let saved := { inserted with chunks }
    .ok (saved.hydrateAfterSave preparedState execution, saved)

def hydrateExecutionCapturedOutput (store : CaptureStore) (execution : AgentActionExecution) :
    AgentActionExecution :=
  { execution with text := fun stream =>
      if execution.storedInChunks stream then
        (store.loadConcatenatedStream execution.id stream).or (execution.text stream)
      else execution.text stream }

/-- `getExecution`, hydrated. -/
def getExecution (store : CaptureStore) (id : String) : Option AgentActionExecution :=
  (store.rows id).map fun row =>
    store.hydrateExecutionCapturedOutput ⟨id, row.text, row.storedInChunks⟩

end CaptureStore

/-! ## Histories of saves -/

/-- A store, with the text that was last saved for each stream. -/
structure CaptureHistory where
  store : CaptureStore := {}
  kept : String → CapturedStream → Option String := fun _ _ => none

/-- The texts after a save: those that it has, and for the others those from before. -/
def CaptureHistory.keep (s : CaptureHistory) (execution : AgentActionExecution) :
    String → CapturedStream → Option String :=
  Function.update s.kept execution.id fun stream =>
    (execution.text stream).or (s.kept execution.id stream)

/-- The saves.  One that fails is rolled back. -/
def captures : Machine CaptureHistory (CaptureLimits × AgentActionExecution) where
  start s := s = {}
  step s save :=
    match s.store.saveExecution save.1 save.2 with
    | .error _ => some s
    | .ok (_, store) => some { store, kept := s.keep save.2 }

/-- The flag that an execution row has, if there is one. -/
def CaptureStore.flag (store : CaptureStore) (id : String) (stream : CapturedStream) : Bool :=
  (store.rows id).any fun row => row.storedInChunks stream

/-- A save that is kept: a long text has no byte order mark where a chunk starts, a short one
comes without the flag, and no text comes with the flag that is stored. -/
def Careful (s : CaptureHistory) (save : CaptureLimits × AgentActionExecution) : Prop :=
  ∀ stream,
    match save.2.text stream with
    | none => save.2.storedInChunks stream = s.store.flag save.2.id stream
    | some text =>
      if shouldSpillToChunks save.1 text then Unmarked save.1.chunkBytes text
      else save.2.storedInChunks stream = false

/-! ## What a save writes -/

theorem four_le_chunkBytes (limits : CaptureLimits) : 4 ≤ limits.chunkBytes :=
  four_le_chunkPayloadUtf8Bytes limits.chunkParsed

theorem inlineMaxUtf8Bytes_pos (limits : CaptureLimits) : 0 < limits.inlineMaxUtf8Bytes := by
  have h : 1024 ≤ limits.inlineMaxUtf8Bytes := le_clamp (by decide)
  omega

theorem ne_empty_of_spills {limits : CaptureLimits} {text : String}
    (h : shouldSpillToChunks limits text = true) : text ≠ "" := by
  rintro rfl
  have hpos := inlineMaxUtf8Bytes_pos limits
  have hlt : limits.inlineMaxUtf8Bytes < (utf8Encode "").length := of_decide_eq_true h
  rw [utf8Encode_eq, length_bytesOf, String.toList_empty, size_nil] at hlt
  omega

namespace CaptureStore

/-- The rows of a stream in a table. -/
def streamRows (chunks : List ChunkRow) (id : String) (stream : CapturedStream) : List ChunkRow :=
  chunks.filter (ChunkRow.isOf id stream.name)

theorem streamRows_replaceStream {n : Nat} (hn : 4 ≤ n) {chunks chunks' : List ChunkRow}
    {id other : String} {stream otherStream : CapturedStream} {text : String}
    (h : replaceStream n chunks id stream.name text = .ok chunks')
    (hother : ¬ (other = id ∧ otherStream = stream)) :
    streamRows chunks' other otherStream = streamRows chunks other otherStream := by
  have hdistinct : ∀ row : ChunkRow, row.isOf other otherStream.name = true →
      row.isOf id stream.name = false := by
    intro row hrow
    simp only [ChunkRow.isOf, Bool.and_eq_true, decide_eq_true_eq] at hrow
    rw [← Bool.not_eq_true, ChunkRow.isOf, Bool.and_eq_true, decide_eq_true_eq, decide_eq_true_eq,
      hrow.1, hrow.2, CapturedStream.name_inj]
    exact hother
  rw [replaceStream] at h
  simp only [split_eq hn, Except.ok.injEq] at h
  rw [← h, streamRows, List.filter_append, List.filter_filter, streamRows]
  have hnone : ((slicesOf 0 0 (pieces n text.toList)).map (ChunkSlice.row id stream.name)).filter
      (ChunkRow.isOf other otherStream.name) = [] := by
    rw [List.filter_eq_nil_iff]
    intro row hrow hof
    have hself : row.isOf id stream.name = true :=
      @isOf_of_mem id stream.name 0 0 (pieces n text.toList) row hrow
    exact absurd (hself.symm.trans (hdistinct row hof)) (by simp)
  rw [hnone, List.append_nil]
  apply List.filter_congr
  intro row _
  cases hof : row.isOf other otherStream.name with
  | false => rfl
  | true => rw [hdistinct row hof]; rfl

/-- A stream is stored: its rows are those of the text if that spills, and the rows of the others
are left. -/
theorem persistStream_ok (limits : CaptureLimits) (execution : AgentActionExecution)
    (stream : CapturedStream) (chunks : List ChunkRow) :
    ∃ chunks', persistStream limits execution stream chunks = .ok chunks' ∧
      (∀ id other, ¬ (id = execution.id ∧ other = stream) →
        streamRows chunks' id other = streamRows chunks id other) ∧
      (execution.spills limits stream = false →
        streamRows chunks' execution.id stream = streamRows chunks execution.id stream) ∧
      ∀ text, execution.text stream = some text → shouldSpillToChunks limits text = true →
        streamRows chunks' execution.id stream =
          rowsOf execution.id stream.name 0 0 (pieces limits.chunkBytes text.toList) := by
  unfold persistStream
  cases htext : execution.text stream with
  | none => exact ⟨chunks, rfl, fun _ _ _ => rfl, fun _ => rfl, by simp⟩
  | some text =>
    have hspills : execution.spills limits stream = shouldSpillToChunks limits text := by
      rw [AgentActionExecution.spills, htext, Option.any_some]
    cases hlong : shouldSpillToChunks limits text with
    | false =>
      refine ⟨chunks, by simp [hlong], fun _ _ _ => rfl, fun _ => rfl, ?_⟩
      rintro _ ⟨⟩ hspill
      exact absurd (hlong.symm.trans hspill) (by simp)
    | true =>
      have hn := four_le_chunkBytes limits
      obtain ⟨chunks', hstore⟩ := replaceStream_ok hn chunks execution.id stream.name text
      refine ⟨chunks', by simp [hlong, hstore], ?_, ?_, ?_⟩
      · intro id other hother
        exact streamRows_replaceStream hn hstore hother
      · intro hnot
        exact absurd (hnot.symm.trans (hspills.trans hlong)) (by simp)
      · rintro _ ⟨⟩ -
        exact filter_replaceStream hn hstore

/-- A save never fails.  It writes the row and the chunk rows of its long texts, and nothing of
another execution or of a stream whose text is not long. -/
theorem saveExecution_ok (limits : CaptureLimits) (store : CaptureStore)
    (execution : AgentActionExecution) :
    ∃ chunks,
      store.saveExecution limits execution = .ok
        (hydrateAfterSave
          { store.insertOnConflictUpdate (prepareExecutionCapturedOutputState limits execution) with
            chunks } (prepareExecutionCapturedOutputState limits execution) execution,
        { store.insertOnConflictUpdate (prepareExecutionCapturedOutputState limits execution) with
          chunks }) ∧
      (∀ id stream, id ≠ execution.id ∨ execution.spills limits stream = false →
        streamRows chunks id stream = streamRows store.chunks id stream) ∧
      ∀ stream text, execution.text stream = some text → shouldSpillToChunks limits text = true →
        streamRows chunks execution.id stream =
          rowsOf execution.id stream.name 0 0 (pieces limits.chunkBytes text.toList) := by
  obtain ⟨first, hfirst, hothers, hshort, hlong⟩ :=
    persistStream_ok limits execution .stdout store.chunks
  obtain ⟨second, hsecond, hothers', hshort', hlong'⟩ :=
    persistStream_ok limits execution .stderr first
  refine ⟨second, ?_, ?_, ?_⟩
  · have hpersist : persistExecutionCapturedOutputChunks limits execution
        (store.insertOnConflictUpdate
          (prepareExecutionCapturedOutputState limits execution)).chunks = .ok second := by
      unfold persistExecutionCapturedOutputChunks insertOnConflictUpdate
      dsimp only
      rw [hfirst]
      exact hsecond
    unfold saveExecution
    dsimp only
    rw [hpersist]
  · intro id stream hkeep
    cases stream with
    | stdout =>
      rw [hothers' id .stdout (by simp)]
      by_cases hid : id = execution.id
      · rw [hid]
        exact hshort (hkeep.resolve_left (by simp [hid]))
      · exact hothers id .stdout (by simp [hid])
    | stderr =>
      by_cases hid : id = execution.id
      · rw [hid, hshort' (hkeep.resolve_left (by simp [hid]))]
        exact hothers execution.id .stderr (by simp)
      · rw [hothers' id .stderr (by simp [hid])]
        exact hothers id .stderr (by simp)
  · intro stream text htext hspills
    cases stream with
    | stdout =>
      rw [hothers' execution.id .stdout (by simp)]
      exact hlong text htext hspills
    | stderr => exact hlong' text htext hspills

theorem loadConcatenatedStream_of_rows {store : CaptureStore} {id : String}
    {stream : CapturedStream} {n : Nat} (hn : 4 ≤ n) {text : String} (hempty : text ≠ "")
    (hunmarked : Unmarked n text)
    (hrows : streamRows store.chunks id stream =
      rowsOf id stream.name 0 0 (pieces n text.toList)) :
    store.loadConcatenatedStream id stream = some text := by
  unfold loadConcatenatedStream
  rw [streamRows] at hrows
  dsimp only
  rw [hrows, List.mergeSort_of_pairwise (pairwise_rowsOf.imp fun h => decide_eq_true h)]
  have hne : (rowsOf id stream.name 0 0 (pieces n text.toList)).isEmpty = false := by
    obtain ⟨front, last, hpieces, -⟩ := exists_last_piece hn hempty
    rw [hpieces, rowsOf_append, rowsOf_cons]
    simp
  rw [hne]
  have hpayloads : ((rowsOf id stream.name 0 0 (pieces n text.toList)).map ChunkRow.payload) =
      (slicesOf 0 0 (pieces n text.toList)).map ChunkSlice.payload := by
    rw [rowsOf, List.map_map]
    rfl
  rw [if_neg Bool.false_ne_true, hpayloads, ((lossless_iff hn).mpr hunmarked).joined]

end CaptureStore

/-! ## What is kept -/

/-- The text of a stream is where the flag of its row says. -/
structure Held (s : CaptureHistory) (id : String) (stream : CapturedStream) : Prop where
  missing : s.store.rows id = none → s.kept id stream = none
  inline : ∀ row, s.store.rows id = some row → row.storedInChunks stream = false →
    row.text stream = s.kept id stream
  chunked : ∀ row, s.store.rows id = some row → row.storedInChunks stream = true →
    ∃ n text, 4 ≤ n ∧ s.kept id stream = some text ∧ text ≠ "" ∧ Unmarked n text ∧
      CaptureStore.streamRows s.store.chunks id stream =
        rowsOf id stream.name 0 0 (pieces n text.toList)

section Step

variable {limits : CaptureLimits} {execution : AgentActionExecution} {before : Option ExecutionRow}
  {stream : CapturedStream}

/-- The row that a save writes. -/
def savedRow (limits : CaptureLimits) (execution : AgentActionExecution)
    (before : Option ExecutionRow) : ExecutionRow :=
  .upsert before (prepareExecutionCapturedOutputState limits execution)

theorem savedRow_none (h : execution.text stream = none) :
    (savedRow limits execution before).text stream = before.bind (fun row => row.text stream) ∧
      (savedRow limits execution before).storedInChunks stream =
        execution.storedInChunks stream := by
  have hspills : execution.spills limits stream = false := by
    rw [AgentActionExecution.spills, h, Option.any_none]
  simp [savedRow, ExecutionRow.upsert, prepareExecutionCapturedOutputState, hspills, h]

theorem savedRow_short {text : String} (h : execution.text stream = some text)
    (hshort : shouldSpillToChunks limits text = false) :
    (savedRow limits execution before).text stream = some text ∧
      (savedRow limits execution before).storedInChunks stream =
        execution.storedInChunks stream := by
  have hspills : execution.spills limits stream = false := by
    rw [AgentActionExecution.spills, h, Option.any_some, hshort]
  simp [savedRow, ExecutionRow.upsert, prepareExecutionCapturedOutputState, hspills, h]

theorem savedRow_long {text : String} (h : execution.text stream = some text)
    (hlong : shouldSpillToChunks limits text = true) :
    (savedRow limits execution before).storedInChunks stream = true := by
  have hspills : execution.spills limits stream = true := by
    rw [AgentActionExecution.spills, h, Option.any_some, hlong]
  simp [savedRow, ExecutionRow.upsert, prepareExecutionCapturedOutputState, hspills]

theorem Held.saved {s : CaptureHistory} (h : Held s execution.id stream)
    (hcareful : Careful s (limits, execution)) {store : CaptureStore}
    (hrow : store.rows execution.id =
      some (savedRow limits execution (s.store.rows execution.id)))
    (hleft : execution.spills limits stream = false →
      CaptureStore.streamRows store.chunks execution.id stream =
        CaptureStore.streamRows s.store.chunks execution.id stream)
    (hlong : ∀ text, execution.text stream = some text → shouldSpillToChunks limits text = true →
      CaptureStore.streamRows store.chunks execution.id stream =
        rowsOf execution.id stream.name 0 0 (pieces limits.chunkBytes text.toList)) :
    Held { store, kept := s.keep execution } execution.id stream := by
  have hkept : s.keep execution execution.id stream =
      (execution.text stream).or (s.kept execution.id stream) := by
    rw [CaptureHistory.keep, Function.update_self]
  have hflag := hcareful stream
  dsimp only at hflag
  refine ⟨fun hnone => absurd (hrow.symm.trans hnone) (by simp), ?_, ?_⟩
  · intro row hsaved hinline
    obtain rfl := Option.some.inj (hrow.symm.trans hsaved)
    show _ = s.keep execution execution.id stream
    rw [hkept]
    cases htext : execution.text stream with
    | none =>
      obtain ⟨hcolumn, hsame⟩ := @savedRow_none limits _ (s.store.rows execution.id) _ htext
      rw [htext, ← hsame, hinline, CaptureStore.flag] at hflag
      rw [hcolumn, Option.none_or]
      cases hbefore : s.store.rows execution.id with
      | none => exact (h.missing hbefore).symm
      | some row =>
        rw [hbefore] at hflag
        exact h.inline row hbefore hflag.symm
    | some text =>
      cases hspill : shouldSpillToChunks limits text with
      | false =>
        rw [(savedRow_short htext hspill).1]
        rfl
      | true =>
        rw [savedRow_long htext hspill] at hinline
        cases hinline
  · intro row hsaved hchunks
    obtain rfl := Option.some.inj (hrow.symm.trans hsaved)
    show ∃ n text, _ ∧ s.keep execution execution.id stream = _ ∧ _
    rw [hkept]
    cases htext : execution.text stream with
    | none =>
      have hspills : execution.spills limits stream = false := by
        rw [AgentActionExecution.spills, htext, Option.any_none]
      have hsame := (@savedRow_none limits _ (s.store.rows execution.id) _ htext).2
      rw [htext, ← hsame, hchunks, CaptureStore.flag] at hflag
      rw [Option.none_or, hleft hspills]
      cases hbefore : s.store.rows execution.id with
      | none =>
        rw [hbefore] at hflag
        cases hflag
      | some row =>
        rw [hbefore] at hflag
        exact h.chunked row hbefore hflag.symm
    | some text =>
      rw [htext] at hflag
      cases hspill : shouldSpillToChunks limits text with
      | false =>
        have hsame := (@savedRow_short limits _ (s.store.rows execution.id) _ _ htext hspill).2
        simp only [hspill, Bool.false_eq_true, if_false] at hflag
        rw [hsame, hflag] at hchunks
        cases hchunks
      | true =>
        simp only [hspill, if_true] at hflag
        exact ⟨limits.chunkBytes, text, four_le_chunkBytes limits, rfl, ne_empty_of_spills hspill,
          hflag, hlong text htext hspill⟩

end Step

theorem step_ok (s : CaptureHistory) (limits : CaptureLimits) (execution : AgentActionExecution) :
    ∃ saved store, s.store.saveExecution limits execution = .ok (saved, store) ∧
      captures.step s (limits, execution) = some { store, kept := s.keep execution } ∧
      store.rows = Function.update s.store.rows execution.id
        (some (savedRow limits execution (s.store.rows execution.id))) ∧
      (∀ id stream, id ≠ execution.id ∨ execution.spills limits stream = false →
        CaptureStore.streamRows store.chunks id stream =
          CaptureStore.streamRows s.store.chunks id stream) ∧
      (∀ stream text, execution.text stream = some text → shouldSpillToChunks limits text = true →
        CaptureStore.streamRows store.chunks execution.id stream =
          rowsOf execution.id stream.name 0 0 (pieces limits.chunkBytes text.toList)) ∧
      ∀ stream text, execution.text stream = some text → saved.text stream = some text := by
  obtain ⟨chunks, hsave, hleft, hlong⟩ := s.store.saveExecution_ok limits execution
  refine ⟨_, _, hsave, ?_, rfl, hleft, hlong, ?_⟩
  · show (match s.store.saveExecution limits execution with
      | .error _ => some s
      | .ok (_, store) => some { store, kept := s.keep execution }) = _
    rw [hsave]
  · intro stream text htext
    simp [CaptureStore.hydrateAfterSave, htext]

theorem Held.step {s s' : CaptureHistory} (h : ∀ id stream, Held s id stream)
    {save : CaptureLimits × AgentActionExecution} (hcareful : Careful s save)
    (hstep : captures.step s save = some s') (id : String) (stream : CapturedStream) :
    Held s' id stream := by
  obtain ⟨limits, execution⟩ := save
  obtain ⟨saved, store, -, hok, hrows, hleft, hlong, -⟩ := step_ok s limits execution
  obtain rfl := Option.some.inj (hok.symm.trans hstep)
  by_cases hid : id = execution.id
  · subst hid
    exact (h execution.id stream).saved hcareful (by rw [hrows, Function.update_self])
      (fun hspills => hleft _ _ (.inr hspills)) (fun text => hlong stream text)
  · have hrow : store.rows id = s.store.rows id := by rw [hrows, Function.update_of_ne hid]
    have hkept : s.keep execution id stream = s.kept id stream := by
      rw [CaptureHistory.keep, Function.update_of_ne hid]
    have hbefore := h id stream
    refine ⟨fun hnone => ?_, fun row hsaved => ?_, fun row hsaved => ?_⟩
    · exact hkept.trans (hbefore.missing (hrow.symm.trans hnone))
    · intro hinline
      exact (hbefore.inline row (hrow.symm.trans hsaved) hinline).trans hkept.symm
    · intro hchunks
      show ∃ n text, _ ∧ s.keep execution id stream = _ ∧ _
      rw [hkept, hleft id stream (.inl hid)]
      exact hbefore.chunked row (hrow.symm.trans hsaved) hchunks

theorem held_of_reach {s : CaptureHistory} (h : captures.Reach Careful s) (id : String)
    (stream : CapturedStream) : Held s id stream := by
  suffices hall : ∀ id stream, Held s id stream from hall id stream
  refine h.invariant (I := fun s => ∀ id stream, Held s id stream) ?_ ?_
  · rintro s rfl id stream
    exact ⟨fun _ => rfl, by simp, by simp⟩
  · intro s save s' hs hcareful hstep id stream
    exact Held.step hs hcareful hstep id stream

/-- What a history of saves is meant to give. -/
structure Captured (s : CaptureHistory) : Prop where
  /-- A save returns the texts that it was given. -/
  returned : ∀ limits execution, ∃ saved store,
    s.store.saveExecution limits execution = .ok (saved, store) ∧
      ∀ stream text, execution.text stream = some text → saved.text stream = some text
  /-- The text that was last saved is loaded. -/
  loaded : ∀ id stream text, s.kept id stream = some text →
    ∃ execution, s.store.getExecution id = some execution ∧ execution.text stream = some text
  /-- While the flag is set, windows are windows of that text. -/
  windows : ∀ id stream text, s.store.flag id stream = true → s.kept id stream = some text →
    ∀ offset maxBytes, 1 ≤ maxBytes → EndFits text offset maxBytes →
      SameWindow (sliceStreamWindow s.store.chunks id stream.name offset maxBytes)
        (sliceUtf8TextWindow text offset maxBytes)

theorem captured_of_careful {s : CaptureHistory} (h : captures.Reach Careful s) : Captured s := by
  constructor
  case returned =>
    intro limits execution
    obtain ⟨saved, store, hsave, -, -, -, -, htexts⟩ := step_ok s limits execution
    exact ⟨saved, store, hsave, htexts⟩
  case loaded =>
    intro id stream text hkept
    have hheld := held_of_reach h id stream
    cases hrow : s.store.rows id with
    | none =>
      rw [hheld.missing hrow] at hkept
      cases hkept
    | some row =>
      refine ⟨_, by rw [CaptureStore.getExecution, hrow]; rfl, ?_⟩
      show (if row.storedInChunks stream = true then
        (s.store.loadConcatenatedStream id stream).or (row.text stream) else row.text stream) = _
      cases hflag : row.storedInChunks stream with
      | false =>
        rw [if_neg Bool.false_ne_true, hheld.inline row hrow hflag, hkept]
      | true =>
        obtain ⟨n, other, hn, hother, hempty, hunmarked, hrows⟩ := hheld.chunked row hrow hflag
        obtain rfl : other = text := Option.some.inj (hother.symm.trans hkept)
        rw [if_pos rfl, CaptureStore.loadConcatenatedStream_of_rows hn hempty hunmarked hrows]
        rfl
  case windows =>
    intro id stream text hflag hkept offset maxBytes hpos hfits
    unfold CaptureStore.flag at hflag
    cases hrow : s.store.rows id with
    | none =>
      rw [hrow] at hflag
      cases hflag
    | some row =>
      rw [hrow] at hflag
      obtain ⟨n, other, hn, hother, hempty, hunmarked, hrows⟩ :=
        (held_of_reach h id stream).chunked row hrow hflag
      obtain rfl : other = text := Option.some.inj (hother.symm.trans hkept)
      obtain ⟨front, last, hpieces, htext, hne⟩ := exists_last_piece hn hempty
      rw [Unmarked, hpieces] at hunmarked
      rw [CaptureStore.streamRows, hpieces] at hrows
      exact sameWindow_of_unmarked hrows htext hne hunmarked hpos hfits

theorem shouldSpillToChunks_eq (limits : CaptureLimits) (text : String) :
    shouldSpillToChunks limits text =
      decide (limits.inlineMaxUtf8Bytes < size text.toList) := by
  rw [shouldSpillToChunks, utf8Encode_eq, length_bytesOf]

/-- An execution with a short text. -/
def done : AgentActionExecution := ⟨"execution", fun _ => some "done", fun _ => false⟩

/-- The same execution without its texts. -/
def statusUpdate : AgentActionExecution := ⟨"execution", fun _ => none, fun _ => false⟩

/-- A text is kept by a save without it. -/
theorem captured_of_careful_statusUpdate :
    ∃ s, captures.run {} [({}, done), ({}, statusUpdate)] = some s ∧
      ∃ execution, s.store.getExecution "execution" = some execution ∧
        execution.text .stdout = some "done" := by
  have hshort : shouldSpillToChunks {} "done" = false := by
    rw [shouldSpillToChunks_eq]
    decide
  obtain ⟨-, store, -, hfirst, hrows, -⟩ := step_ok {} {} done
  obtain ⟨-, store', -, hsecond, -⟩ :=
    step_ok { store, kept := CaptureHistory.keep {} done } {} statusUpdate
  have hcareful : Careful {} ({}, done) := by
    intro stream
    simp [done, hshort]
  have hcareful' : Careful { store, kept := CaptureHistory.keep {} done } ({}, statusUpdate) := by
    intro stream
    show false = store.flag done.id stream
    rw [CaptureStore.flag, hrows, Function.update_self, Option.any_some]
    have htext : done.text stream = some "done" := rfl
    exact (savedRow_short htext hshort).2.symm
  have hreach := ((Machine.Reach.start (M := captures) rfl).step hcareful hfirst).step hcareful'
    hsecond
  refine ⟨_, ?_, (captured_of_careful hreach).loaded "execution" .stdout "done" ?_⟩
  · simp only [Machine.run, hfirst, hsecond]
  · simp [CaptureHistory.keep, done, statusUpdate]

/-! ## A flag that is not lowered -/

theorem unmarked_of_notMem {n : Nat} (hn : 4 ≤ n) {text : String}
    (h : byteOrderMark ∉ text.toList) : Unmarked n text := by
  intro piece hpiece hmark
  refine h ?_
  rw [← flatten_pieces hn text.toList]
  exact List.mem_flatten.mpr ⟨piece, hpiece, List.mem_of_mem_head? hmark⟩

/-- The letter `a`, some times. -/
def letters (n : Nat) : String := String.ofList (List.replicate n 'a')

theorem size_letters (n : Nat) : size (letters n).toList = n := by
  rw [letters, String.toList_ofList]
  induction n with
  | zero => rfl
  | succ n ih =>
    have hsucc : size (List.replicate (n + 1) 'a') = 1 + size (List.replicate n 'a') := rfl
    omega

/-- A short text in place of a long one is returned by the save, and then the long one is loaded:
the flag of the loaded execution is saved again, and the chunk rows are still there. -/
theorem short_after_long :
    ∃ first loaded second found store store',
      (CaptureStore.saveExecution { inlineParsed := some 1024 } {}
          ⟨"execution", fun _ => some (letters 1025), fun _ => false⟩ = .ok (first, store) ∧
        store.getExecution "execution" = some loaded ∧
        store.saveExecution { inlineParsed := some 1024 }
          { loaded with text := fun _ => some "done" } = .ok (second, store') ∧
        store'.getExecution "execution" = some found) ∧
      second.text .stdout = some "done" ∧ found.text .stdout = some (letters 1025) ∧
      letters 1025 ≠ "done" := by
  have hsize := size_letters 1025
  have hnotMem : byteOrderMark ∉ (letters 1025).toList := by
    rw [letters, String.toList_ofList, List.mem_replicate]
    decide
  generalize letters 1025 = long at hsize hnotMem
  have hlong : shouldSpillToChunks { inlineParsed := some 1024 } long = true := by
    rw [shouldSpillToChunks_eq, hsize]
    decide
  have hshort : shouldSpillToChunks { inlineParsed := some 1024 } "done" = false := by
    rw [shouldSpillToChunks_eq]
    decide
  have hne : long ≠ "done" := by
    rintro rfl
    exact absurd (hlong.symm.trans hshort) (by simp)
  obtain ⟨first, store, hsave, -, hrows, -, hchunks, -⟩ := step_ok {} { inlineParsed := some 1024 }
    ⟨"execution", fun _ => some long, fun _ => false⟩
  obtain ⟨row, hrow, hflag⟩ : ∃ row, store.rows "execution" = some row ∧
      row.storedInChunks .stdout = true := by
    refine ⟨_, by rw [hrows, Function.update_self], ?_⟩
    have htext : AgentActionExecution.text ⟨"execution", fun _ => some long, fun _ => false⟩
      .stdout = some long := rfl
    exact savedRow_long htext hlong
  -- The loaded execution brings its flag back with a short text.
  obtain ⟨loaded, hloaded, hid, hagain⟩ : ∃ loaded, store.getExecution "execution" = some loaded ∧
      loaded.id = "execution" ∧ loaded.storedInChunks .stdout = true := by
    refine ⟨_, by rw [CaptureStore.getExecution, hrow]; rfl, rfl, hflag⟩
  obtain ⟨second, store', hsave', -, hrows', hkept, -, htexts'⟩ :=
    step_ok { store } { inlineParsed := some 1024 } { loaded with text := fun _ => some "done" }
  have htext : AgentActionExecution.text { loaded with text := fun _ => some "done" } .stdout =
    some "done" := rfl
  have hspills : AgentActionExecution.spills { inlineParsed := some 1024 }
      { loaded with text := fun _ => some "done" } .stdout = false := hshort
  obtain ⟨row', hrow', hflag'⟩ : ∃ row, store'.rows "execution" = some row ∧
      row.storedInChunks .stdout = true := by
    refine ⟨_, by rw [hrows', ← hid, Function.update_self], ?_⟩
    rw [(savedRow_short htext hshort).2]
    exact hagain
  have hload : store'.loadConcatenatedStream "execution" .stdout = some long := by
    have hn := four_le_chunkBytes { inlineParsed := some 1024 }
    refine CaptureStore.loadConcatenatedStream_of_rows hn (ne_empty_of_spills hlong)
      (unmarked_of_notMem hn hnotMem) ?_
    rw [hkept "execution" .stdout (.inr hspills)]
    exact hchunks .stdout long rfl hlong
  obtain ⟨found, hfound, hstale⟩ : ∃ found, store'.getExecution "execution" = some found ∧
      found.text .stdout = some long := by
    refine ⟨_, by rw [CaptureStore.getExecution, hrow']; rfl, ?_⟩
    show (if row'.storedInChunks .stdout = true then
      (store'.loadConcatenatedStream "execution" .stdout).or (row'.text .stdout)
      else row'.text .stdout) = some long
    rw [if_pos hflag', hload]
    rfl
  exact ⟨first, loaded, second, found, store, store', ⟨hsave, hloaded, hsave', hfound⟩,
    htexts' .stdout "done" rfl, hstale, hne⟩

end PlugAgente.CapturedOutput
