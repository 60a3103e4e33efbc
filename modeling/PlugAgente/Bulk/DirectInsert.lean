import PlugAgente.Batch.Transaction
import PlugAgente.Dart.Text

/-!
# Bulk inserts on a direct connection

`OdbcBulkInsertExecutor.executeDirect` with the paths behind it: one native call, chunks
of calls on one connection, with a transaction around them or without, chunks of parallel
calls, and the prepared statement that inserts wide text row by row.

What the native layer does is an input, together with the moment at which the caller
cancels.  A call that succeeds has written its rows, and one that fails has written none
unless its outcome is unknown.  `World` counts the calls and the questions that were asked
so far, which are the indices into the input, and keeps the rows that were written.

An error carries what the inspectors answer about it, as in the batch code, and whether its
context says that there were partial writes.
-/

namespace PlugAgente.BulkInsert

open PlugAgente.Batch PlugAgente.Dart

/-! ## Requests -/

inductive BulkInsertColumnType where
  | i32
  | i64
  | text
  | decimal
  | binary
  | timestamp
  deriving DecidableEq, Repr

/-- What the executor reads of a `BulkInsertColumn`. -/
structure BulkInsertColumn where
  name : Text
  type : BulkInsertColumnType
  deriving DecidableEq, Repr

/-- A row: the text of each value, or null. -/
abbrev Row := List (Option Text)

structure BulkInsertRequest where
  table : Text
  columns : List BulkInsertColumn
  rows : List Row
  deriving DecidableEq, Repr

/-- `validate`: the message of the failure, if there is one. -/
def validate (request : BulkInsertRequest) : Option String :=
  if trim request.table = [] then some "Bulk insert table is required"
  else if request.columns = [] then some "Bulk insert requires at least one column"
  else if request.rows = [] then some "Bulk insert requires at least one row"
  else if request.columns.any (trim ·.name = []) then
    some "Bulk insert column names must not be empty"
  else if request.rows.any (·.length ≠ request.columns.length) then
    some "Bulk insert row length does not match column count"
  else none

inductive DatabaseType where
  | sqlServer
  | postgresql
  | sybaseAnywhere
  deriving DecidableEq, Repr

/-- The arguments of `executeDirect`; its callers validate the request first. -/
structure Arguments where
  request : BulkInsertRequest
  databaseType : Option DatabaseType
  hasCancellationToken : Bool
  requireAtomic : Bool := false
  valid : validate request = none

/-- The platform and the configuration.  The size of a chunk comes from
`ConnectionConstantsEnv.positiveInt` or is the default. -/
structure Config where
  isWindows : Bool
  bulkInsertChunkRowCount : Nat
  bulkInsertParallelEnabled : Bool
  bulkInsertParallelRowThreshold : Nat
  parallelism : Nat
  parallelPoolAvailable : Bool
  nativeBcpPilotEnabled : Bool
  chunk_pos : 0 < bulkInsertChunkRowCount

def requiresWideTextBinding (cfg : Config) (columns : List BulkInsertColumn) (rows : List Row) :
    Bool :=
  cfg.isWindows && rows.any fun row =>
    (columns.zip row).any fun (column, value) =>
      column.type == .text &&
        match value with
        | none => false
        | some text => text.any fun c => 127 < c.toNat

/-- `BulkInsertParallelPolicy.shouldUseParallel`. -/
def shouldUseParallel (cfg : Config) (databaseType : DatabaseType) (requestRowCount : Nat)
    (requireAtomic : Bool) : Bool :=
  !requireAtomic && cfg.parallelPoolAvailable && cfg.bulkInsertParallelEnabled &&
    databaseType == .sqlServer && cfg.bulkInsertParallelRowThreshold ≤ requestRowCount &&
    1 < cfg.parallelism

def shouldAttemptNativeBcpBulkInsert (cfg : Config) (databaseType : Option DatabaseType) : Bool :=
  databaseType == some .sqlServer && cfg.nativeBcpPilotEnabled

/-- `sublist` by `sublist`, for a number of chunks that is large enough. -/
def chunks (size : Nat) : Nat → List Row → List (List Row)
  | 0, _ => []
  | _, [] => []
  | fuel + 1, rows => rows.take size :: chunks size fuel (rows.drop size)

/-! ## Failures -/

/-- A failure, with the `partial_writes` entry of its context. -/
structure BulkFailure where
  error : BatchError
  partialWrites : Bool := false
  deriving DecidableEq, Repr

/-- The failure says that there were partial writes, or that its outcome is unknown. -/
def BulkFailure.warns (f : BulkFailure) : Bool :=
  f.partialWrites || f.error.outcomeUnknown

/-- What a call comes to. -/
inductive Outcome where
  | ok (inserted : Nat)
  | fail (f : BulkFailure)
  | throw (e : BatchError)
  deriving DecidableEq, Repr

def cancelledFailure : BulkFailure :=
  ⟨.failure "Bulk insert execution cancelled" {}, false⟩

def parallelBulkFailure (f : BulkFailure) : BulkFailure where
  error := f.error.wrap
    (f.error.message ++ " Parallel bulk insert is not atomic across connections; " ++
      "some rows may already have been committed and were not rolled back.") f.error.context
  partialWrites := true

/-- The failure of a timeout that reaches `executeDirect`. -/
def timeoutFailure (e : BatchError) : BulkFailure where
  error := e.wrap "Bulk insert execution timeout"
    { timeout := true, outcomeUnknown := true, retryable := some false }

/-- The failure of a deadline that is over between two rows. -/
def budgetFailure : BulkFailure where
  error := .failure "Bulk insert budget exhausted"
    { timeout := true, retryable := some false, executionNotStarted := true }

def containsText (text part : List Char) : Bool :=
  text.tails.any (part.isPrefixOf ·)

def isNativeBcpUnsupportedError (e : BatchError) : Bool :=
  let lower := e.message.toList.map Char.toLower
  containsText lower "enable 'sqlserver-bcp' feature".toList ||
    containsText lower "odbc_enable_unstable_native_bcp".toList ||
    containsText lower "native sql server bcp is disabled".toList ||
    containsText lower "native sql server bcp is currently supported only".toList

/-! ## The native layer -/

/-- What a native call that writes rows does.  It is atomic, and a call that passes its
deadline may be carried out behind it. -/
structure NativeCall where
  answer : Answer Nat
  applied : Bool
  applied_of_ok : ∀ n, answer = .ok n → applied = true
  not_applied_of_fail : ∀ e, answer = .fail e → e.outcomeUnknown = false → applied = false
  not_applied_of_throw : ∀ e, answer = .throw e → e.outcomeUnknown = false →
    e.isTimeoutException = false → applied = false

/-- What happens outside: the answers by the number of the question. -/
structure Behaviour where
  /-- The check from which on the token is cancelled. -/
  cancelFrom : Option Nat := none
  lease : Option BatchError := none
  connect : Option BatchError := none
  ensurePool : Option BatchError := none
  /-- What building the payload of a chunk throws. -/
  build : Nat → Option BatchError := fun _ => none
  native : Nat → NativeCall
  prepare : Nat → Answer Unit := fun _ => .ok ()
  /-- The deadline is over between two rows. -/
  expired : Nat → Bool := fun _ => false
  close : Nat → Option BatchError := fun _ => none
  transaction : TransactionAnswers := {}
  /-- A commit that is not confirmed has taken effect. -/
  commitApplied : Bool := false

/-- How far the execution has come. -/
structure World where
  calls : Nat := 0
  checks : Nat := 0
  deadlines : Nat := 0
  payloads : Nat := 0
  written : List Row := []
  deriving DecidableEq, Repr

namespace World

/-- `cancellationToken?.isCancelled ?? false` at the next check. -/
def isCancelled (w : World) (b : Behaviour) (hasToken : Bool) : Bool :=
  hasToken &&
    match b.cancelFrom with
    | none => false
    | some k => k ≤ w.checks

def check (w : World) : World := { w with checks := w.checks + 1 }

/-- The next native call, with its rows. -/
def call (w : World) (b : Behaviour) (rows : List Row) : World :=
  { w with
    calls := w.calls + 1
    written := if (b.native w.calls).applied then w.written ++ rows else w.written }

end World

/-! ## The paths -/

section

variable (cfg : Config) (b : Behaviour) (hasToken : Bool)

/-- The loop over the rows of `_executeWideTextChunk`. -/
def insertRows : List Row → Nat → World → Outcome × World
  | [], inserted, w => (.ok inserted, w)
  | row :: rest, inserted, w =>
    if w.isCancelled b hasToken then (.fail cancelledFailure, w.check)
    else
      let w := w.check
      if b.expired w.deadlines then (.fail budgetFailure, w)
      else
        let w := { w with deadlines := w.deadlines + 1 }
        match (b.native w.calls).answer with
        | .ok _ => insertRows rest (inserted + 1) (w.call b [row])
        | .fail e => (.fail ⟨e, false⟩, w.call b [row])
        | .throw e => (.throw e, w.call b [row])

/-- The `catch` of `_executeWideTextChunk`. -/
def caughtWideText : Outcome → Outcome
  | .throw e => .fail ⟨e.mapQueryError (some "bulk_insert_wide_text"), false⟩
  | outcome => outcome

/-- The result of `closePreparedStatements` on top of that of the rows. -/
def closeWideText (closed : Option BatchError) (outcome : Outcome) : Outcome :=
  match closed with
  | none => outcome
  | some e =>
    match outcome with
    | .fail f => .fail { f with error := f.error.mapQueryError none }
    | _ =>
      .fail ⟨(e.mapQueryError (some "closeStatement")).wrap "Prepared statement cleanup failed"
        { operation := some "closeStatement" }, false⟩

def executeWideTextChunk (rows : List Row) (w : World) : Outcome × World :=
  let w' := { w with payloads := w.payloads + 1 }
  match b.prepare w.payloads with
  | .fail e => (.fail ⟨e, false⟩, w')
  | .throw e => (caughtWideText (.throw e), w')
  | .ok _ =>
    let (outcome, w') := insertRows b hasToken rows 0 w'
    (closeWideText (b.close w.payloads) (caughtWideText outcome), w')

/-- The failure of `_service.bulkInsert`. -/
def bulkInsertFailure (pilotEnabled : Bool) (e : BatchError) : BulkFailure :=
  if pilotEnabled && isNativeBcpUnsupportedError e then
    ⟨e.wrap "Native SQL Server BCP is disabled or unavailable" {}, false⟩
  else
    let mapped := e.mapQueryError (some "bulk_insert_direct")
    if pilotEnabled then
      ⟨e.wrap (mapped.message ++ " Native BCP may have committed some rows; " ++
        "they were not rolled back as a single transaction.") mapped.context, true⟩
    else ⟨mapped, false⟩

def executeSingleBulkInsert (columns : List BulkInsertColumn) (pilotEnabled : Bool)
    (rows : List Row) (w : World) : Outcome × World :=
  if w.isCancelled b hasToken then (.fail cancelledFailure, w.check)
  else
    let w := w.check
    if requiresWideTextBinding cfg columns rows then executeWideTextChunk b hasToken rows w
    else
      let w' := { w with payloads := w.payloads + 1 }
      match b.build w.payloads with
      | some e => (.throw e, w')
      | none =>
        match (b.native w'.calls).answer with
        | .ok n => (.ok n, w'.call b rows)
        | .fail e => (.fail (bulkInsertFailure pilotEnabled e), w'.call b rows)
        | .throw e => (.throw e, w'.call b rows)

def executeSingleBulkInsertParallel (rows : List Row) (w : World) : Outcome × World :=
  if w.isCancelled b hasToken then (.fail cancelledFailure, w.check)
  else
    let w := w.check
    let w' := { w with payloads := w.payloads + 1 }
    match b.build w.payloads with
    | some e => (.throw e, w')
    | none =>
      match (b.native w'.calls).answer with
      | .ok n => (.ok n, w'.call b rows)
      | .fail e =>
        (.fail (parallelBulkFailure ⟨e.mapQueryError (some "bulk_insert_parallel"), false⟩),
          w'.call b rows)
      | .throw e =>
        if e.isTimeoutException then
          (.fail (parallelBulkFailure ⟨e.wrap "Bulk insert parallel execution timeout"
            { timeout := true }, false⟩), w'.call b rows)
        else (.throw e, w'.call b rows)

/-- The loop over the chunks; `failed` is what the loop makes of the failure of a chunk. -/
def executeChunks (execute : List Row → World → Outcome × World)
    (failed : BulkFailure → BulkFailure) :
    List (List Row) → Nat → World → Outcome × World
  | [], total, w => (.ok total, w)
  | chunk :: rest, total, w =>
    if w.isCancelled b hasToken then (.fail cancelledFailure, w.check)
    else
      match execute chunk w.check with
      | (.ok n, w) => executeChunks execute failed rest (total + n) w
      | (.fail f, w) => (.fail (failed f), w)
      | (.throw e, w) => (.throw e, w)

/-- What `_executeChunkedBulkInsert` and `_executeChunkedBulkInsertParallel` share. -/
def executeChunked (execute : List Row → World → Outcome × World)
    (failed : BulkFailure → BulkFailure) (rows : List Row) (w : World) : Outcome × World :=
  if w.isCancelled b hasToken then (.fail cancelledFailure, w.check)
  else if rows.length ≤ cfg.bulkInsertChunkRowCount then execute rows w.check
  else
    executeChunks b hasToken execute failed
      (chunks cfg.bulkInsertChunkRowCount rows.length rows) 0 w.check

def executeChunkedBulkInsert (columns : List BulkInsertColumn) (pilotEnabled : Bool)
    (rows : List Row) (w : World) : Outcome × World :=
  executeChunked cfg b hasToken (executeSingleBulkInsert cfg b hasToken columns pilotEnabled) id
    rows w

def executeChunkedBulkInsertParallel (rows : List Row) (w : World) : Outcome × World :=
  executeChunked cfg b hasToken (executeSingleBulkInsertParallel b hasToken) parallelBulkFailure
    rows w

end

/-! ## The transaction -/

/-- What came of a request: the outcome, and the rows that are committed. -/
structure Report where
  outcome : Outcome
  committed : List Row

/-- `abort` of `_executeChunkedBulkInsertInTransaction`. -/
def abort (b : Behaviour) (g : BatchTransactionGuard) (f : BulkFailure) : Report :=
  let g := if f.error.outcomeUnknown || f.error.isTimeoutException then g.markUnconfirmed else g
  let g := (Batch.rollback 0 b.transaction.rollback g fun _ => none).transaction
  { outcome := .fail
      { error := f.error.mapQueryError (some "bulk_insert_transaction_execute")
          (g.state == .unconfirmed)
        partialWrites := f.partialWrites }
    committed := [] }

def executeChunkedBulkInsertInTransaction (cfg : Config) (b : Behaviour) (hasToken : Bool)
    (columns : List BulkInsertColumn) (rows : List Row) (w : World) : Report :=
  match (Batch.beginIfNeeded 0 false b.transaction fun _ => none).1 with
  | .error e =>
    { outcome := .fail ⟨e.mapQueryError (some "bulk_insert_transaction_begin"), false⟩
      committed := [] }
  | .ok id =>
    let g : BatchTransactionGuard := { transactionId := some id }
    match executeChunkedBulkInsert cfg b hasToken columns false rows w with
    | (.fail f, _) => abort b g f
    | (.throw e, _) => abort b g ⟨e, false⟩
    | (.ok n, w) =>
      let step := Batch.commit 0 b.transaction g fun _ => none
      match step.result with
      | .ok () => { outcome := .ok n, committed := w.written }
      | .error e =>
        -- Without a dispatch nothing is committed; the connection goes with its transaction.
        { outcome := .fail ⟨e, false⟩
          committed := if step.events ≠ [] && b.commitApplied then w.written else [] }

/-! ## Direct execution -/

/-- The request goes to the parallel calls. -/
def usesParallel (cfg : Config) (a : Arguments) : Bool :=
  !requiresWideTextBinding cfg a.request.columns a.request.rows &&
    match a.databaseType with
    | none => false
    | some databaseType =>
      shouldUseParallel cfg databaseType a.request.rows.length a.requireAtomic

/-- `shouldWrap` of `_executeSequentialBulkInsert`, as `executeDirect` calls it. -/
def shouldWrap (cfg : Config) (a : Arguments) : Bool :=
  (a.requireAtomic || cfg.bulkInsertChunkRowCount < a.request.rows.length) &&
    !(!a.requireAtomic && shouldAttemptNativeBcpBulkInsert cfg a.databaseType)

/-- The `on TimeoutException` of `executeDirect`. -/
def caughtTimeout (report : Report) : Report :=
  match report.outcome with
  | .throw e =>
    if e.isTimeoutException then { report with outcome := .fail (timeoutFailure e) } else report
  | _ => report

/-- `_executeSequentialBulkInsert`, on the connection of `executeDirect`. -/
def executeSequentialBulkInsert (cfg : Config) (a : Arguments) (b : Behaviour) (w : World) :
    Report :=
  if shouldWrap cfg a then
    executeChunkedBulkInsertInTransaction cfg b a.hasCancellationToken a.request.columns
      a.request.rows w
  else
    let (outcome, w) := executeChunkedBulkInsert cfg b a.hasCancellationToken a.request.columns
      (!a.requireAtomic && shouldAttemptNativeBcpBulkInsert cfg a.databaseType) a.request.rows w
    { outcome := outcome, committed := w.written }

def executeParallelDirect (cfg : Config) (a : Arguments) (b : Behaviour) (w : World) : Report :=
  if w.isCancelled b a.hasCancellationToken then
    { outcome := .fail cancelledFailure, committed := [] }
  else
    match b.ensurePool with
    | some e => { outcome := .fail ⟨e, false⟩, committed := [] }
    | none =>
      let (outcome, w) := executeChunkedBulkInsertParallel cfg b a.hasCancellationToken
        a.request.rows w.check
      { outcome := outcome, committed := w.written }

def executeDirect (cfg : Config) (a : Arguments) (b : Behaviour) : Report :=
  let w : World := {}
  if w.isCancelled b a.hasCancellationToken then
    { outcome := .fail cancelledFailure, committed := [] }
  else if usesParallel cfg a then executeParallelDirect cfg a b w.check
  else
    match b.lease, b.connect with
    | some e, _ => { outcome := .fail ⟨e, false⟩, committed := [] }
    | none, some e =>
      { outcome := .fail ⟨e.wrap e.detail { connectionFailed := true }, false⟩, committed := [] }
    | none, none => caughtTimeout (executeSequentialBulkInsert cfg a b w.check)

end PlugAgente.BulkInsert
