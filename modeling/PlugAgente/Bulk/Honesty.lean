import PlugAgente.Bulk.DirectInsert

/-!
# Failures of bulk inserts

A failure that warns of neither partial writes nor an unknown outcome should mean that
nothing was committed.  `failure_honest_iff` says for which requests it does, whatever the
native layer answers and whenever the caller cancels.

The transaction keeps the promise on every exit, and so does a single native call.  The
chunks of parallel calls break it when the caller cancels between two of them; the chunks
without a transaction break it when one of them finds native BCP unsupported; and the rows
of wide text break it when the statement cannot be closed behind them.
-/

namespace PlugAgente.BulkInsert

open PlugAgente.Batch

/-- A failure that does not warn leaves nothing committed. -/
def Report.Honest (report : Report) : Prop :=
  ∀ f, report.outcome = .fail f → f.warns = false → report.committed = []

/-! ## Failures that warn -/

theorem warns_of_outcomeUnknown {f : BulkFailure} (h : f.error.outcomeUnknown = true) :
    f.warns = true := by
  simp [BulkFailure.warns, h]

theorem parallelBulkFailure_warns (f : BulkFailure) : (parallelBulkFailure f).warns = true := rfl

theorem timeoutFailure_warns (e : BatchError) : (timeoutFailure e).warns = true := rfl

theorem bulkInsertFailure_warns {pilotEnabled : Bool} {e : BatchError}
    (h : e.outcomeUnknown = true) : (bulkInsertFailure pilotEnabled e).warns = true := by
  rw [bulkInsertFailure]
  split
  · simp [BulkFailure.warns, BatchError.wrap, BatchError.outcomeUnknown] at h ⊢
    simp [h]
  · split
    · rfl
    · apply warns_of_outcomeUnknown
      rw [BatchError.outcomeUnknown_mapQueryError, h]

/-! ## Calls that fail -/

theorem call_written_of_not_applied {w : World} {b : Behaviour} {rows : List Row}
    (h : (b.native w.calls).applied = false) : (w.call b rows).written = w.written := by
  simp [World.call, h]

theorem executeSingleBulkInsert_fail {cfg : Config} {b : Behaviour} {hasToken pilotEnabled : Bool}
    {columns : List BulkInsertColumn} {rows : List Row} {w w' : World} {f : BulkFailure}
    (hwide : requiresWideTextBinding cfg columns rows = false)
    (h : executeSingleBulkInsert cfg b hasToken columns pilotEnabled rows w = (.fail f, w'))
    (hwarns : f.warns = false) : w'.written = w.written := by
  rw [executeSingleBulkInsert] at h
  split at h
  · cases h
    rfl
  · simp only [hwide, Bool.false_eq_true, if_false] at h
    split at h
    · cases h
    · split at h
      · cases h
      · rename_i e hanswer
        cases h
        have hknown : e.outcomeUnknown = false := by
          by_contra hunknown
          rw [bulkInsertFailure_warns (by simpa using hunknown)] at hwarns
          cases hwarns
        exact call_written_of_not_applied
          ((b.native w.check.calls).not_applied_of_fail e hanswer hknown)
      · cases h

theorem executeSingleBulkInsertParallel_fail {b : Behaviour} {hasToken : Bool} {rows : List Row}
    {w w' : World} {f : BulkFailure}
    (h : executeSingleBulkInsertParallel b hasToken rows w = (.fail f, w'))
    (hwarns : f.warns = false) : w'.written = w.written := by
  rw [executeSingleBulkInsertParallel] at h
  split at h
  · cases h
    rfl
  · dsimp only at h
    split at h
    · cases h
    · split at h
      · cases h
      · cases h
        rw [parallelBulkFailure_warns] at hwarns
        cases hwarns
      · split at h
        · cases h
          rw [parallelBulkFailure_warns] at hwarns
          cases hwarns
        · cases h

/-- Without a token, the loop over the chunks fails with what it makes of the failure of a
chunk. -/
theorem executeChunks_fail {b : Behaviour} {execute : List Row → World → Outcome × World}
    {failed : BulkFailure → BulkFailure} {list : List (List Row)} {total : Nat} {w w' : World}
    {f : BulkFailure} (h : executeChunks b false execute failed list total w = (.fail f, w')) :
    ∃ g, f = failed g := by
  induction list generalizing total w with
  | nil => cases h
  | cons chunk rest ih =>
    rw [executeChunks] at h
    simp only [World.isCancelled, Bool.false_and, Bool.false_eq_true, if_false] at h
    split at h
    · exact ih h
    · rename_i g _ _
      cases h
      exact ⟨g, rfl⟩
    · cases h

theorem executeChunked_fail_of_le {cfg : Config} {b : Behaviour} {hasToken : Bool}
    {execute : List Row → World → Outcome × World} {failed : BulkFailure → BulkFailure}
    {rows : List Row} {w w' : World} {f : BulkFailure}
    (hle : rows.length ≤ cfg.bulkInsertChunkRowCount)
    (h : executeChunked cfg b hasToken execute failed rows w = (.fail f, w'))
    (hsingle : execute rows w.check = (.fail f, w') → w'.written = w.check.written) :
    w'.written = w.written := by
  rw [executeChunked] at h
  split at h
  · cases h
    rfl
  · exact hsingle h

/-! ## The transaction -/

theorem commit_error {answers : TransactionAnswers} {id : Nat} {marks : Marks} {e : BatchError}
    (h : (Batch.commit 0 answers { transactionId := some id } marks).result = .error e)
    (hevents : (Batch.commit 0 answers { transactionId := some id } marks).events ≠ []) :
    e.outcomeUnknown = true := by
  rw [Batch.commit] at h hevents
  simp only [Option.isNone_some, Bool.false_eq_true, if_false] at h hevents
  split at h
  · rename_i hexpired
    simp [hexpired] at hevents
  · split at h
    · rename_i hactive
      simp [BatchTransactionGuard.isActive] at hactive
    · split at h
      · cases h
      · cases h
        rfl
      · cases h
        rfl

theorem executeChunkedBulkInsertInTransaction_honest {cfg : Config} {b : Behaviour}
    {hasToken : Bool} {columns : List BulkInsertColumn} {rows : List Row} {w : World} :
    (executeChunkedBulkInsertInTransaction cfg b hasToken columns rows w).Honest := by
  intro f hf hwarns
  rw [executeChunkedBulkInsertInTransaction] at hf ⊢
  split
  · rfl
  · rename_i id hbegin
    rw [hbegin] at hf
    dsimp only at hf ⊢
    split
    · rfl
    · rfl
    · rename_i n w' hinsert
      rw [hinsert] at hf
      dsimp only at hf ⊢
      split
      · rename_i hresult
        rw [hresult] at hf
        cases hf
      · rename_i e hresult
        rw [hresult] at hf
        cases hf
        dsimp only
        by_cases hevents : (Batch.commit 0 b.transaction { transactionId := some id }
            fun _ => none).events = []
        · simp [hevents]
        · have hunknown := commit_error hresult hevents
          simp [BulkFailure.warns, hunknown] at hwarns

theorem caughtTimeout_honest {report : Report} (h : report.Honest) :
    (caughtTimeout report).Honest := by
  rw [caughtTimeout]
  split
  · rename_i e houtcome
    split
    · intro f hf hwarns
      cases hf
      rw [timeoutFailure_warns] at hwarns
      cases hwarns
    · exact h
  · exact h

/-! ## Where the promise is kept -/

/-- The requests for which a failure that does not warn means that nothing was committed: in
parallel, a single chunk or one that cannot be cancelled; on one connection, a transaction,
or a single chunk without wide text. -/
def KeepsPromise (cfg : Config) (a : Arguments) : Prop :=
  if usesParallel cfg a then
    a.request.rows.length ≤ cfg.bulkInsertChunkRowCount ∨ a.hasCancellationToken = false
  else
    shouldWrap cfg a = true ∨
      (a.request.rows.length ≤ cfg.bulkInsertChunkRowCount ∧
        requiresWideTextBinding cfg a.request.columns a.request.rows = false)

theorem executeParallelDirect_honest {cfg : Config} {a : Arguments} {b : Behaviour} {w : World}
    (hw : w.written = [])
    (h : a.request.rows.length ≤ cfg.bulkInsertChunkRowCount ∨ a.hasCancellationToken = false) :
    (executeParallelDirect cfg a b w).Honest := by
  intro f hf hwarns
  rw [executeParallelDirect] at hf ⊢
  split
  · rfl
  · rename_i hcancelled
    rw [if_neg hcancelled] at hf
    split
    · rfl
    · rename_i hpool
      rw [hpool] at hf
      dsimp only at hf ⊢
      generalize hrun : executeChunkedBulkInsertParallel cfg b a.hasCancellationToken
        a.request.rows w.check = result at hf
      obtain ⟨outcome, w'⟩ := result
      have houtcome : outcome = .fail f := hf
      rw [houtcome] at hrun
      show w'.written = []
      rcases h with hle | htoken
      · have hwritten := executeChunked_fail_of_le hle hrun fun hsingle =>
          executeSingleBulkInsertParallel_fail hsingle hwarns
        rw [hwritten]
        exact hw
      · rw [htoken, executeChunkedBulkInsertParallel, executeChunked] at hrun
        simp only [World.isCancelled, Bool.false_and, Bool.false_eq_true, if_false] at hrun
        split at hrun
        · rw [executeSingleBulkInsertParallel_fail hrun hwarns]
          exact hw
        · obtain ⟨g, hg⟩ := executeChunks_fail hrun
          rw [hg, parallelBulkFailure_warns] at hwarns
          cases hwarns

theorem executeSequentialBulkInsert_honest {cfg : Config} {a : Arguments} {b : Behaviour}
    {w : World} (hw : w.written = [])
    (h : shouldWrap cfg a = true ∨
      (a.request.rows.length ≤ cfg.bulkInsertChunkRowCount ∧
        requiresWideTextBinding cfg a.request.columns a.request.rows = false)) :
    (executeSequentialBulkInsert cfg a b w).Honest := by
  rw [executeSequentialBulkInsert]
  split
  · exact executeChunkedBulkInsertInTransaction_honest
  · rename_i hwrap
    rcases h with hwrap' | ⟨hle, hwide⟩
    · exact absurd hwrap' hwrap
    · intro f hf hwarns
      dsimp only at hf ⊢
      generalize hrun : executeChunkedBulkInsert cfg b a.hasCancellationToken a.request.columns
        (!a.requireAtomic && shouldAttemptNativeBcpBulkInsert cfg a.databaseType)
        a.request.rows w = result at hf
      obtain ⟨outcome, w'⟩ := result
      have houtcome : outcome = .fail f := hf
      rw [houtcome] at hrun
      show w'.written = []
      have hwritten := executeChunked_fail_of_le hle hrun fun hsingle =>
        executeSingleBulkInsert_fail hwide hsingle hwarns
      rw [hwritten]
      exact hw

theorem executeDirect_honest {cfg : Config} {a : Arguments} (h : KeepsPromise cfg a)
    (b : Behaviour) : (executeDirect cfg a b).Honest := by
  rw [executeDirect]
  split
  · intro f _ _
    rfl
  · split
    · rename_i hparallel
      rw [KeepsPromise, if_pos hparallel] at h
      exact executeParallelDirect_honest rfl h
    · rename_i hparallel
      rw [KeepsPromise, if_neg hparallel] at h
      split
      · intro f _ _
        rfl
      · intro f _ _
        rfl
      · exact caughtTimeout_honest (executeSequentialBulkInsert_honest rfl h)

/-! ## Where it is broken -/

/-- A call that succeeds. -/
def okCall (n : Nat) : NativeCall where
  answer := .ok n
  applied := true
  applied_of_ok _ _ := rfl
  not_applied_of_fail _ h := by cases h
  not_applied_of_throw _ h := by cases h

/-- An error of a driver without native BCP. -/
def bcpDisabled : BatchError where
  message := "Native SQL Server BCP is disabled"

def bcpCall : NativeCall where
  answer := .fail bcpDisabled
  applied := false
  applied_of_ok _ h := by cases h
  not_applied_of_fail _ _ _ := rfl
  not_applied_of_throw _ h := by cases h

theorem isNativeBcpUnsupportedError_bcpDisabled : isNativeBcpUnsupportedError bcpDisabled = true := by
  decide

theorem chunks_of_lt {size : Nat} {rows : List Row} (hsize : 0 < size) (h : size < rows.length) :
    ∃ rest, chunks size rows.length rows =
        rows.take size :: (rows.drop size).take size :: rest ∧
      rows.take size ≠ [] ∧ (rows.drop size).take size ≠ [] := by
  obtain ⟨fuel, hfuel⟩ : ∃ fuel, rows.length = fuel + 2 := ⟨rows.length - 2, by omega⟩
  have hrows : rows ≠ [] := by
    intro hnil
    simp [hnil] at h
  have hdrop : rows.drop size ≠ [] := by
    intro hnil
    have := congrArg List.length hnil
    rw [List.length_drop, List.length_nil] at this
    omega
  refine ⟨chunks size fuel ((rows.drop size).drop size), ?_, ?_, ?_⟩
  · rw [hfuel, chunks.eq_3 _ _ _ hrows, chunks.eq_3 _ _ _ hdrop]
  · simp [List.take_eq_nil_iff, hrows]
    omega
  · simp only [ne_eq, List.take_eq_nil_iff, not_or]
    exact ⟨by omega, hdrop⟩

theorem not_honest {report : Report} {f : BulkFailure} (houtcome : report.outcome = .fail f)
    (hwarns : f.warns = false) (hcommitted : report.committed ≠ []) : ¬ report.Honest :=
  fun h => hcommitted (h f houtcome hwarns)

theorem parallel_not_honest {cfg : Config} {a : Arguments} (hparallel : usesParallel cfg a = true)
    (hlt : cfg.bulkInsertChunkRowCount < a.request.rows.length)
    (htoken : a.hasCancellationToken = true) :
    ∃ b, ¬ (executeDirect cfg a b).Honest := by
  obtain ⟨rest, hchunks, hfirst, -⟩ := chunks_of_lt cfg.chunk_pos hlt
  let b : Behaviour := { native := fun _ => okCall 0, cancelFrom := some 5 }
  have hle : ¬ a.request.rows.length ≤ cfg.bulkInsertChunkRowCount := by omega
  have hrun : executeDirect cfg a b =
      { outcome := .fail cancelledFailure
        committed := a.request.rows.take cfg.bulkInsertChunkRowCount } := by
    simp [executeDirect, executeParallelDirect, executeChunkedBulkInsertParallel, executeChunked,
      executeChunks, executeSingleBulkInsertParallel, World.isCancelled, World.check, World.call,
      b, okCall, hparallel, htoken, hle, hchunks]
  refine ⟨b, ?_⟩
  rw [hrun]
  exact not_honest rfl rfl hfirst

/-- Two rows for SQL Server, with a chunk for each. -/
def twoRows : Arguments where
  request :=
    { table := "t".toList
      columns := [⟨"id".toList, .i32⟩]
      rows := [[some "1".toList], [some "2".toList]] }
  databaseType := some .sqlServer
  hasCancellationToken := true
  valid := by decide

/-- The configuration that inserts them in parallel. -/
def parallelConfig : Config where
  isWindows := true
  bulkInsertChunkRowCount := 1
  bulkInsertParallelEnabled := true
  bulkInsertParallelRowThreshold := 1
  parallelism := 2
  parallelPoolAvailable := true
  nativeBcpPilotEnabled := false
  chunk_pos := by decide

/-- Every call succeeds, and the caller cancels behind the first chunk. -/
def cancelledBetween : Behaviour where
  native _ := okCall 1
  cancelFrom := some 5

/-- The failure of the cancellation does not warn, and the first row is committed. -/
theorem cancelled_parallel_not_honest :
    (executeDirect parallelConfig twoRows cancelledBetween).outcome = .fail cancelledFailure ∧
      cancelledFailure.warns = false ∧
      (executeDirect parallelConfig twoRows cancelledBetween).committed = [[some "1".toList]] ∧
      ¬ (executeDirect parallelConfig twoRows cancelledBetween).Honest := by
  have houtcome : (executeDirect parallelConfig twoRows cancelledBetween).outcome =
      .fail cancelledFailure := by decide
  have hcommitted : (executeDirect parallelConfig twoRows cancelledBetween).committed =
      [[some "1".toList]] := by decide
  refine ⟨houtcome, rfl, hcommitted, ?_⟩
  apply not_honest houtcome rfl
  rw [hcommitted]
  simp

theorem insertRows_ok {b : Behaviour} {hasToken : Bool} (hcancel : b.cancelFrom = none)
    (hexpired : ∀ k, b.expired k = false) {rows : List Row} {inserted : Nat} {w : World}
    (hnative : ∀ i < rows.length, b.native (w.calls + i) = okCall 1) :
    ∃ w', insertRows b hasToken rows inserted w = (.ok (inserted + rows.length), w') ∧
      w'.calls = w.calls + rows.length ∧ w'.payloads = w.payloads ∧
      w'.written = w.written ++ rows := by
  induction rows generalizing inserted w with
  | nil => exact ⟨w, rfl, rfl, rfl, by simp⟩
  | cons row rest ih =>
    have hfirst : b.native w.calls = okCall 1 := hnative 0 (by simp)
    let next : World :=
      { w with
        calls := w.calls + 1
        checks := w.checks + 1
        deadlines := w.deadlines + 1
        written := w.written ++ [row] }
    have hrest : ∀ i < rest.length, b.native (next.calls + i) = okCall 1 := by
      intro i hi
      have hnext := hnative (i + 1) (by simpa using hi)
      rwa [show w.calls + (i + 1) = next.calls + i by simp [next]; omega] at hnext
    obtain ⟨w', hrun, hcalls, hpayloads, hwritten⟩ := @ih (inserted + 1) next hrest
    refine ⟨w', ?_, ?_, ?_, ?_⟩
    · rw [insertRows]
      simp only [World.isCancelled, hcancel, Bool.and_false, Bool.false_eq_true, if_false,
        World.check, hexpired, hfirst, okCall, World.call]
      simp only [next] at hrun
      rw [if_pos trivial, hrun, List.length_cons]
      congr 2
      omega
    · rw [hcalls, List.length_cons]
      simp only [next]
      omega
    · rw [hpayloads]
    · rw [hwritten]
      simp [next]

theorem Arguments.rows_ne (a : Arguments) : a.request.rows ≠ [] := by
  intro hnil
  have hvalid := a.valid
  rw [validate] at hvalid
  split at hvalid
  · cases hvalid
  · split at hvalid
    · cases hvalid
    · simp at hvalid

theorem wideText_not_honest {cfg : Config} {a : Arguments}
    (hparallel : usesParallel cfg a = false) (hwrap : shouldWrap cfg a = false)
    (hle : a.request.rows.length ≤ cfg.bulkInsertChunkRowCount)
    (hwide : requiresWideTextBinding cfg a.request.columns a.request.rows = true) :
    ∃ b, ¬ (executeDirect cfg a b).Honest := by
  let b : Behaviour := { native := fun _ => okCall 1, close := fun _ => some {} }
  let w : World := { checks := 3, payloads := 1 }
  obtain ⟨w', hrows, -, -, hwritten⟩ : ∃ w', insertRows b a.hasCancellationToken a.request.rows 0 w =
      (.ok (0 + a.request.rows.length), w') ∧ w'.calls = w.calls + a.request.rows.length ∧
      w'.payloads = w.payloads ∧ w'.written = w.written ++ a.request.rows :=
    insertRows_ok rfl (fun _ => rfl) fun _ _ => rfl
  have hrun : executeDirect cfg a b =
      { outcome := closeWideText (some {}) (.ok a.request.rows.length)
        committed := w'.written } := by
    simp only [b, w] at hrows
    simp [executeDirect, executeSequentialBulkInsert, executeChunkedBulkInsert, executeChunked,
      executeSingleBulkInsert, executeWideTextChunk, World.isCancelled, World.check, b, hparallel,
      hwrap, hle, hwide, hrows, caughtWideText, closeWideText, caughtTimeout]
  refine ⟨b, ?_⟩
  rw [hrun]
  refine not_honest rfl rfl ?_
  show w'.written ≠ []
  rw [hwritten]
  exact a.rows_ne

theorem executeSingleBulkInsert_ok {cfg : Config} {b : Behaviour} {hasToken pilotEnabled : Bool}
    {columns : List BulkInsertColumn} {rows : List Row} {w : World} (hcancel : b.cancelFrom = none)
    (hexpired : ∀ k, b.expired k = false) (hprepare : b.prepare w.payloads = .ok ())
    (hclose : b.close w.payloads = none) (hbuild : b.build w.payloads = none)
    (hnative : ∀ i < if requiresWideTextBinding cfg columns rows then rows.length else 1,
      b.native (w.calls + i) = okCall 1) :
    ∃ n w', executeSingleBulkInsert cfg b hasToken columns pilotEnabled rows w = (.ok n, w') ∧
      w'.calls = w.calls + (if requiresWideTextBinding cfg columns rows then rows.length else 1) ∧
      w'.written = w.written ++ rows := by
  rw [executeSingleBulkInsert]
  simp only [World.isCancelled, hcancel, Bool.and_false, Bool.false_eq_true, if_false, World.check]
  cases hwide : requiresWideTextBinding cfg columns rows with
  | true =>
    rw [hwide] at hnative
    let next : World := { w with checks := w.checks + 1, payloads := w.payloads + 1 }
    obtain ⟨w', hrows, hcalls, -, hwritten⟩ : ∃ w', insertRows b hasToken rows 0 next =
        (.ok (0 + rows.length), w') ∧ w'.calls = next.calls + rows.length ∧
        w'.payloads = next.payloads ∧ w'.written = next.written ++ rows :=
      insertRows_ok hcancel hexpired hnative
    simp only [next] at hrows
    refine ⟨0 + rows.length, w', ?_, hcalls, hwritten⟩
    simp [executeWideTextChunk, hprepare, hrows, hclose, caughtWideText, closeWideText]
  | false =>
    rw [hwide] at hnative
    have hcall : b.native w.calls = okCall 1 := hnative 0 (by simp)
    let next : World := { w with checks := w.checks + 1, payloads := w.payloads + 1 }
    refine ⟨1, next.call b rows, ?_, ?_, ?_⟩
    · simp only [Bool.false_eq_true, if_false, hbuild, hcall, okCall, next]
    · simp [World.call, next]
    · simp [World.call, hcall, okCall, next]

theorem executeSingleBulkInsert_bcpDisabled {cfg : Config} {b : Behaviour} {hasToken : Bool}
    {columns : List BulkInsertColumn} {rows : List Row} {w : World} (hrows : rows ≠ [])
    (hcancel : b.cancelFrom = none) (hexpired : ∀ k, b.expired k = false)
    (hprepare : b.prepare w.payloads = .ok ()) (hclose : b.close w.payloads = none)
    (hbuild : b.build w.payloads = none) (hnative : b.native w.calls = bcpCall) :
    ∃ f w', executeSingleBulkInsert cfg b hasToken columns true rows w = (.fail f, w') ∧
      f.warns = false ∧ w'.written = w.written := by
  rw [executeSingleBulkInsert]
  simp only [World.isCancelled, hcancel, Bool.and_false, Bool.false_eq_true, if_false, World.check]
  cases hwide : requiresWideTextBinding cfg columns rows with
  | true =>
    cases rows with
    | nil => exact absurd rfl hrows
    | cons row rest =>
      let next : World := { w with
        checks := w.checks + 2, payloads := w.payloads + 1, deadlines := w.deadlines + 1 }
      refine ⟨⟨bcpDisabled, false⟩, next.call b [row], ?_, rfl, ?_⟩
      · simp only [if_true, executeWideTextChunk, hprepare, insertRows, World.isCancelled, hcancel,
          Bool.and_false, Bool.false_eq_true, if_false, World.check, hexpired, hnative, bcpCall,
          caughtWideText, hclose, closeWideText, next]
      · simp [World.call, hnative, bcpCall, next]
  | false =>
    let next : World := { w with checks := w.checks + 1, payloads := w.payloads + 1 }
    refine ⟨bulkInsertFailure true bcpDisabled, next.call b rows, ?_, ?_, ?_⟩
    · simp only [Bool.false_eq_true, if_false, hbuild, hnative, bcpCall, next]
    · rw [bulkInsertFailure, isNativeBcpUnsupportedError_bcpDisabled]
      rfl
    · simp [World.call, hnative, bcpCall, next]

theorem chunks_not_honest {cfg : Config} {a : Arguments}
    (hparallel : usesParallel cfg a = false) (hwrap : shouldWrap cfg a = false)
    (hlt : cfg.bulkInsertChunkRowCount < a.request.rows.length) :
    ∃ b, ¬ (executeDirect cfg a b).Honest := by
  obtain ⟨rest, hchunks, hfirst, hsecond⟩ := chunks_of_lt cfg.chunk_pos hlt
  have hle : ¬ a.request.rows.length ≤ cfg.bulkInsertChunkRowCount := by omega
  have hpilot : (!a.requireAtomic && shouldAttemptNativeBcpBulkInsert cfg a.databaseType) = true := by
    simpa [shouldWrap, hlt] using hwrap
  let calls := if requiresWideTextBinding cfg a.request.columns
      (a.request.rows.take cfg.bulkInsertChunkRowCount) then
    (a.request.rows.take cfg.bulkInsertChunkRowCount).length else 1
  let b : Behaviour := { native := fun i => if i < calls then okCall 1 else bcpCall }
  let w : World := { checks := 3 }
  obtain ⟨n, w₁, hrun₁, hcalls₁, hwritten₁⟩ : ∃ n w',
      executeSingleBulkInsert cfg b a.hasCancellationToken a.request.columns true
        (a.request.rows.take cfg.bulkInsertChunkRowCount) w = (.ok n, w') ∧
      w'.calls = w.calls + calls ∧
      w'.written = w.written ++ a.request.rows.take cfg.bulkInsertChunkRowCount := by
    refine executeSingleBulkInsert_ok rfl (fun _ => rfl) rfl rfl rfl ?_
    intro i hi
    have hi : i < calls := hi
    simp [b, w, hi]
  obtain ⟨f, w₂, hrun₂, hwarns, hwritten₂⟩ : ∃ f w',
      executeSingleBulkInsert cfg b a.hasCancellationToken a.request.columns true
        ((a.request.rows.drop cfg.bulkInsertChunkRowCount).take cfg.bulkInsertChunkRowCount)
        w₁.check = (.fail f, w') ∧ f.warns = false ∧ w'.written = w₁.check.written := by
    refine executeSingleBulkInsert_bcpDisabled hsecond rfl (fun _ => rfl) rfl rfl rfl ?_
    simp [b, w, World.check, hcalls₁]
  have hrun : executeDirect cfg a b = { outcome := .fail f, committed := w₂.written } := by
    simp only [w] at hrun₁
    simp only [World.check] at hrun₂
    simp [executeDirect, executeSequentialBulkInsert, executeChunkedBulkInsert, executeChunked,
      executeChunks, World.isCancelled, World.check, hparallel, hwrap, hle, hpilot, hchunks,
      hrun₁, hrun₂, caughtTimeout, b]
  refine ⟨b, ?_⟩
  rw [hrun]
  refine not_honest rfl hwarns ?_
  show w₂.written ≠ []
  rw [hwritten₂]
  show w₁.written ≠ []
  rw [hwritten₁]
  exact hfirst

/-- Whatever the native layer answers and whenever the caller cancels, a failure that warns
of neither partial writes nor an unknown outcome means that nothing was committed, exactly
for the requests that keep the promise. -/
theorem failure_honest_iff (cfg : Config) (a : Arguments) :
    (∀ b, (executeDirect cfg a b).Honest) ↔ KeepsPromise cfg a := by
  refine ⟨?_, executeDirect_honest⟩
  intro h
  by_contra hbroken
  suffices hexists : ∃ b, ¬ (executeDirect cfg a b).Honest by
    obtain ⟨b, hb⟩ := hexists
    exact hb (h b)
  rw [KeepsPromise] at hbroken
  split at hbroken
  · rename_i hparallel
    rw [not_or] at hbroken
    exact parallel_not_honest hparallel (by omega) (by simpa using hbroken.2)
  · rename_i hparallel
    have hparallel : usesParallel cfg a = false := by simpa using hparallel
    rw [not_or, not_and] at hbroken
    have hwrap : shouldWrap cfg a = false := by simpa using hbroken.1
    by_cases hle : a.request.rows.length ≤ cfg.bulkInsertChunkRowCount
    · exact wideText_not_honest hparallel hwrap hle (by simpa using hbroken.2 hle)
    · exact chunks_not_honest hparallel hwrap (by omega)

end PlugAgente.BulkInsert
