import PlugAgente.Batch.Transaction
import PlugAgente.Dart.Text

/-!
# The commands of a batch

`OdbcBatchCommandPhase.executeBatchCommands`: the loop over the commands of a
batch, with and without a transaction, the retry of a command after a lost
connection, and the cleanup of the prepared statements.

The query runner is modelled by what it comes to and by how often it hands the
command to the service: a command without parameters that runs against a
deadline and outside of a transaction goes through the native asynchronous API
first, and when that answers that the feature is not supported it is run once more
without it.  The content
of the cache of prepared statements after a call is an input.

`SqlValidator` is a parameter: the results hold for any validation and for any
notion of a read-only query.
-/

namespace PlugAgente.Batch

open PlugAgente.Dart

/-! ## Commands and results -/

/-- `SqlCommand`, with the names of its parameters. -/
structure SqlCommand where
  sql : Text
  params : List Text := []
  deriving Repr, DecidableEq

def preparedStatementKeyFor (c : SqlCommand) : Text :=
  c.sql ++ "::".toList ++
    ((c.params.mergeSort fun a b => decide (a ≤ b)).intersperse [',']).flatten

/-- Whether the key of a command is among the `collectRepeatedPreparedKeys`. -/
def usePrepared (commands : List SqlCommand) (c : SqlCommand) : Bool :=
  1 < (commands.map preparedStatementKeyFor).count (preparedStatementKeyFor c)

/-- `QueryResponse`, over any type of rows. -/
structure QueryResponse (ρ : Type) where
  data : List ρ
  affectedRows : Option Int := none
  columnMetadata : Option (List ρ) := none
  deriving Repr, DecidableEq

structure SqlCommandResult (ρ : Type) where
  index : Nat
  ok : Bool
  rows : Option (List ρ) := none
  rowCount : Option Nat := none
  affectedRows : Option Int := none
  error : Option String := none
  columnMetadata : Option (List ρ) := none
  deriving Repr, DecidableEq

def truncateSqlResultRows {ρ : Type} (rows : List ρ) (maxRows : Int) : List ρ :=
  if maxRows < 1 ∨ (rows.length : Int) ≤ maxRows then rows else rows.take maxRows.toNat

/-- The item of a command that succeeded. -/
def SqlCommandResult.ofResponse {ρ : Type} (index : Nat) (maxRows : Int)
    (response : QueryResponse ρ) : SqlCommandResult ρ :=
  let limitedRows := truncateSqlResultRows response.data maxRows
  { index := index
    ok := true
    rows := some limitedRows
    rowCount := some limitedRows.length
    affectedRows := response.affectedRows
    columnMetadata := response.columnMetadata }

def SqlCommandResult.failure {ρ : Type} (index : Nat) (error : String) : SqlCommandResult ρ :=
  { index := index, ok := false, error := some error }

/-- The text of an item whose command failed with an error. -/
def itemError (e : BatchError) : String :=
  (e.mapQueryError (some "execute_batch_item")).message

/-- The arguments of a batch. -/
structure BatchCall where
  commands : List SqlCommand
  transaction : Bool
  maxRows : Int := 50000
  hasDeadline : Bool := true
  /-- `SqlValidator.validateSqlForExecution`: the message of the failure. -/
  validateSqlForExecution : Text → Option String
  /-- `SqlValidator.isReadOnlyQuery`. -/
  isReadOnlyQuery : Text → Bool

/-! ## What the outside does -/

/-- One call of the query runner.  `cancelled` says that the token is found
cancelled before anything is dispatched. -/
structure RunnerCall (ρ : Type) where
  cancelled : Bool := false
  asyncUnsupported : Bool := false
  outcome : Answer (QueryResponse ρ)
  statements : List Nat := []

/-- What the outside does during the commands of one attempt.  The first call of
the runner for a command is call 0, the call after a reconnect is call 1. -/
structure CommandAnswers (ρ : Type) where
  cancelled : Nat → Bool := fun _ => false
  expired : Nat → Bool := fun _ => false
  run : Nat → Nat → RunnerCall ρ
  reacquire : Nat → Answer Nat := fun _ => .ok 0
  /-- Closing a prepared statement; nothing when the close is deferred. -/
  close : Nat → Option (Answer Unit) := fun _ => some (.ok ())
  closeOnLoss : Nat → Nat → Option (Answer Unit) := fun _ _ => some (.ok ())

/-- The variables of `executeBatchCommands`. -/
structure CommandState (ρ : Type) where
  connection : Option Nat
  transaction : BatchTransactionGuard
  marks : Marks := fun _ => none
  statements : List Nat := []
  commandPending : Bool := false
  results : List (SqlCommandResult ρ) := []
  events : List Event := []

/-! ## Prepared statements -/

def closeErrors (answers : Nat → Option (Answer Unit)) (statements : List Nat) :
    List BatchError :=
  statements.filterMap fun id =>
    (answers id).bind fun answer =>
      answer.error?.map (·.mapQueryError (some "closeStatement"))

/-- `closePreparedStatements`: the error, if a statement could not be closed, and
the marks. -/
def closePreparedStatements (connection : Nat) (answers : Nat → Option (Answer Unit))
    (statements : List Nat) (marks : Marks) : Option BatchError × Marks :=
  match closeErrors answers statements with
  | [] => (none, marks)
  | e :: _ =>
    (some (e.wrap "Prepared statement cleanup failed" { operation := some "closeStatement" }),
      markConnectionOutcomeUnknown marks connection)

/-! ## One command -/

section Phase

variable {ρ : Type} (call : BatchCall) (answers : CommandAnswers ρ) (rollbackAnswer : Answer Unit)

/-- The error of a command that has no connection. -/
def connectionUnavailable : BatchError := { detail := "Bad state: batch_connection_unavailable" }

/-- The error of a call that finds the token cancelled. -/
def cancellationError : BatchError := { branch := .cancelled, detail := "Operation was cancelled" }

/-- How often a call of the runner hands the command to the service. -/
def RunnerCall.dispatches (r : RunnerCall ρ) (c : SqlCommand) : Nat :=
  if r.cancelled then 0
  else if !usePrepared call.commands c && !call.transaction && call.hasDeadline &&
      c.params.isEmpty && r.asyncUnsupported then 2
  else 1

/-- What a call of the runner comes to. -/
def RunnerCall.answer (r : RunnerCall ρ) : Answer (QueryResponse ρ) :=
  if r.cancelled then .fail cancellationError else r.outcome

def executeCurrentCommand (i attempt : Nat) (c : SqlCommand) (s : CommandState ρ) :
    CommandState ρ × Answer (QueryResponse ρ) :=
  match s.connection with
  | none => (s, .fail connectionUnavailable)
  | some connection =>
    let r := answers.run i attempt
    ({ s with
        commandPending :=
          match r.answer with
          | .ok _ => false
          | .fail e => e.outcomeUnknown
          | .throw _ => true
        statements := if usePrepared call.commands c then r.statements else s.statements
        events := s.events ++ List.replicate (r.dispatches call c) (.dispatch connection i attempt) },
      r.answer)

/-- The error of a write whose connection was lost while it ran. -/
def writeInterrupted (i : Nat) (failure : BatchError) : BatchError :=
  failure.wrap
    ("The database connection dropped while a write command was running. " ++
      "The command may already have been applied.")
    { connectionFailed := true
      failedIndex := some i
      operation := some "execute_batch_item" }

/-- `shouldRecoverNonTransactionalBatchConnection`. -/
def shouldRecover (failure : BatchError) : Bool :=
  if failure.outcomeUnknown then false
  else
    failure.isConnectionFailure || failure.isInvalidConnectionId ||
      failure.context.connectionFailed

/-- `_retryBatchCommandAfterConnectionFailure`. -/
def retryAfterConnectionFailure (i : Nat) (c : SqlCommand) (failure : BatchError)
    (s : CommandState ρ) : CommandState ρ × Answer (QueryResponse ρ) :=
  match s.connection with
  | none => (s, .fail failure)
  | some connection =>
    let marks :=
      if s.statements.isEmpty then s.marks
      else (closePreparedStatements connection (answers.closeOnLoss i) s.statements s.marks).2
    let marks := markConnectionForDiscard marks connection
    let s :=
      { s with
        connection := none
        statements := []
        marks := unmark marks connection
        events := s.events ++ [.release connection (some s.transaction) (marks connection)] }
    let commandNeverRan := failure.isInvalidConnectionId
    if !commandNeverRan && !call.isReadOnlyQuery c.sql then (s, .fail (writeInterrupted i failure))
    else
      match answers.reacquire i with
      | .ok connection =>
        executeCurrentCommand call answers i 1 c { s with connection := some connection }
      | .fail e => (s, .fail e)
      | .throw e => (s, .throw e)

/-- How a round of the loop ends: with the next command, behind the last one, with
a `return`, or with a throw. -/
inductive Exit where
  | next
  | stop
  | returned (e : BatchError)
  | thrown (e : BatchError)

/-- Roll the transaction back over a connection. -/
def CommandState.rollback (s : CommandState ρ) (connection : Nat) : CommandState ρ :=
  let r := Batch.rollback connection rollbackAnswer s.transaction s.marks
  { s with
    transaction := r.transaction
    marks := r.marks
    events := s.events ++ r.events }

/-- Roll the transaction back over the connection of the batch, if it has one. -/
def CommandState.rollbackActive (s : CommandState ρ) : CommandState ρ :=
  match s.connection with
  | some connection => s.rollback rollbackAnswer connection
  | none =>
    if s.transaction.isActive then { s with transaction := s.transaction.markUnconfirmed } else s

/-- Mark the transaction unconfirmed and its connection unknown. -/
def CommandState.markUnconfirmed (s : CommandState ρ) : CommandState ρ :=
  { s with
    transaction := s.transaction.markUnconfirmed
    marks :=
      match s.connection with
      | some connection => markConnectionOutcomeUnknown s.marks connection
      | none => s.marks }

/-- The handler of a `TimeoutException`. -/
def onTimeout (i : Nat) (e : BatchError) (s : CommandState ρ) : CommandState ρ × Exit :=
  if call.transaction then
    (s.markUnconfirmed.rollbackActive rollbackAnswer,
      .returned (e.wrap "Transaction aborted due to timeout"
        { operation := some "transaction_timeout"
          outcomeUnknown := true
          retryable := some false
          failedIndex := some i
          timeout := true }))
  else (s, .returned (e.wrap "Batch SQL execution timeout" { timeout := true }))

def CommandState.addItem (s : CommandState ρ) (item : SqlCommandResult ρ) : CommandState ρ :=
  { s with results := s.results ++ [item] }

/-- What becomes of a command of a transaction that failed. -/
def abortTransaction (i : Nat) (e : BatchError) (s : CommandState ρ) : CommandState ρ × Exit :=
  let failure := e.mapQueryError (some "execute_batch_item")
  let s := if failure.outcomeUnknown then s.markUnconfirmed else s
  let s := s.rollbackActive rollbackAnswer
  (s, .returned (e.wrap "Transaction aborted due to command failure"
    { failure.context with
      operation := some "transaction_execute"
      rollbackConfirmed := some s.transaction.rollbackConfirmed
      failedIndex := some i
      outcomeUnknown := failure.context.outcomeUnknown || s.transaction.state == .unconfirmed
      retryable :=
        if s.transaction.state == .unconfirmed then some false else failure.context.retryable }))

/-- What becomes of the answer to a retried command, or of one that is not
retried. -/
def finishCommand (i : Nat) (s : CommandState ρ) :
    Answer (QueryResponse ρ) → CommandState ρ × Exit
  | .ok response => (s.addItem (.ofResponse i call.maxRows response), .next)
  | .fail e => (s.addItem (.failure i (itemError e)), .next)
  | .throw e =>
    if e.isTimeoutException then onTimeout call rollbackAnswer i e s else (s, .thrown e)

/-- One round of the loop over the commands. -/
def commandRound (contextConnection : Nat) (i : Nat) (c : SqlCommand) (s : CommandState ρ) :
    CommandState ρ × Exit :=
  if answers.cancelled i then
    if call.transaction then
      (s.rollback rollbackAnswer contextConnection,
        .returned (.failure "Transaction aborted because the batch was cancelled" {}))
    else
      ({ s with
          results := s.results ++ (List.range' i (call.commands.length - i)).map fun j =>
            SqlCommandResult.failure j "Batch SQL execution was cancelled" }, .stop)
  else
    match call.validateSqlForExecution c.sql with
    | some message =>
      if call.transaction then
        (s.rollback rollbackAnswer contextConnection,
          .returned (.failure "Transaction aborted due to command validation failure"
            { operation := some "transaction_validation", failedIndex := some i }))
      else (s.addItem (.failure i message), .next)
    | none =>
      if answers.expired i then onTimeout call rollbackAnswer i .timeoutException s
      else
        match executeCurrentCommand call answers i 0 c s with
        | (s, .fail e) =>
          if call.transaction then abortTransaction rollbackAnswer i e s
          else
            let failure := e.mapQueryError (some "execute_batch_item")
            if shouldRecover failure then
              let r := retryAfterConnectionFailure call answers i c failure s
              finishCommand call rollbackAnswer i r.1 r.2
            else finishCommand call rollbackAnswer i s (.fail e)
        | (s, answer) => finishCommand call rollbackAnswer i s answer

/-- The loop over the commands from index `i` on. -/
def commandLoop (contextConnection : Nat) :
    List SqlCommand → Nat → CommandState ρ → CommandState ρ × Exit
  | [], _, s => (s, .stop)
  | c :: rest, i, s =>
    match commandRound call answers rollbackAnswer contextConnection i c s with
    | (s, .next) => commandLoop contextConnection rest (i + 1) s
    | (s, exit) => (s, exit)

/-! ## The phase -/

/-- The `finally` of the loop. -/
def cleanup (s : CommandState ρ) : CommandState ρ × Option BatchError :=
  match s.connection with
  | some connection =>
    let r := closePreparedStatements connection answers.close s.statements s.marks
    ({ s with marks := r.2 }, r.1)
  | none => (s, none)

/-- The `catch` around the loop. -/
def onThrow (contextConnection : Nat) (e : BatchError) (s : CommandState ρ) :
    CommandState ρ × BatchError :=
  let s :=
    if s.commandPending || e.outcomeUnknown then s.markUnconfirmed
    else s.rollback rollbackAnswer contextConnection
  let mapped := e.mapQueryError (some "batch_execute") (s.transaction.state == .unconfirmed)
  (s, { mapped with context := { mapped.context with retryable := some false } })

/-- What the loop comes to, behind its `finally` and the `catch` around it. -/
def primaryResult (contextConnection : Nat) (s : CommandState ρ) :
    Exit → CommandState ρ × Except BatchError (List (SqlCommandResult ρ))
  | .next | .stop => (s, .ok s.results)
  | .returned e => (s, .error e)
  | .thrown e =>
    let r := onThrow rollbackAnswer contextConnection e s
    (r.1, .error r.2)

/-- What becomes of the result when the cleanup failed. -/
def withCleanupError (cleanupError : BatchError)
    (primary : CommandState ρ × Except BatchError (List (SqlCommandResult ρ))) :
    CommandState ρ × Except BatchError (List (SqlCommandResult ρ)) :=
  let s :=
    if cleanupError.outcomeUnknown then
      { primary.1 with transaction := primary.1.transaction.markUnconfirmed }
    else primary.1
  match primary.2 with
  | .ok _ => (s, .error cleanupError)
  | .error e =>
    let mapped := e.mapQueryError none
    (s, .error (e.wrap mapped.message { mapped.context with retryable := some false }))

def executeBatchCommands (contextConnection : Nat) (transaction : BatchTransactionGuard)
    (marks : Marks) : CommandState ρ × Except BatchError (List (SqlCommandResult ρ)) :=
  let looped := commandLoop call answers rollbackAnswer contextConnection call.commands 0
    { connection := some contextConnection, transaction := transaction, marks := marks }
  let cleaned := cleanup answers looped.1
  let primary := primaryResult rollbackAnswer contextConnection cleaned.1 looped.2
  match cleaned.2 with
  | none => primary
  | some cleanupError => withCleanupError cleanupError primary

end Phase

end PlugAgente.Batch
