import PlugAgente.Batch.Commands

/-!
# The attempts of a batch

The loop of `OdbcBatchExecutionOrchestrator._executeUnlocked` over at most two
attempts: acquire a connection, begin, run the commands, commit, release.  The
routing of a batch to the bulk insert or to the parallel read-only execution
happens before the loop and is not modelled here.

What the pool does when its idle connections are recycled between two attempts
is not modelled either.

The begin, the commands and the commit report what goes wrong as results, so the
`catch` of the loop has nothing to catch; what it would do is left out.
-/

namespace PlugAgente.Batch

/-! ## Contexts -/

structure BatchExecutionContext where
  connectionId : Nat
  ownedConnection : Bool := false
  nativeCompatibleAcquire : Bool := false
  deriving Repr, DecidableEq

/-- What the outside does during one attempt.  `context` is the connection that is
acquired or opened; `nativeEligible` is `shouldUseTransactionalBatch`;
`skipOptions` says that the connection string is known not to support the options
of a transaction. -/
structure AttemptAnswers (ρ : Type) where
  context : Except BatchError Nat
  nativeEligible : Bool := false
  skipOptions : Bool := false
  transactions : TransactionAnswers := {}
  commands : CommandAnswers ρ

def prepareBatchExecutionContext {ρ : Type} (transaction forceDirect : Bool)
    (answers : AttemptAnswers ρ) : Except BatchError BatchExecutionContext :=
  let useOwnedConnection := transaction && forceDirect
  let allowNative := transaction && !forceDirect
  let useNative := allowNative && answers.nativeEligible
  let owned := useOwnedConnection || (allowNative && !useNative)
  answers.context.map fun connection =>
    { connectionId := connection
      ownedConnection := owned
      nativeCompatibleAcquire := !owned && useNative }

def shouldFallbackTransactionalNativePoolToDirect (context : BatchExecutionContext)
    (error : BatchError) (attempt : Nat) (rollbackConfirmed executionNotStarted : Bool) : Bool :=
  if error.outcomeUnknown || (!rollbackConfirmed && !executionNotStarted) then false
  else if !context.nativeCompatibleAcquire || context.ownedConnection || decide (0 < attempt) then
    false
  else
    let failure := if error.isFailure then error else error.mapQueryError none
    if failure.context.operation == some "transaction_validation" then false
    else
      failure.isConnectionFailure || failure.isInvalidConnectionId ||
        failure.context.connectionFailed || failure.context.timeout ||
        failure.context.bufferTooSmallReason || failure.context.workerBusyReason ||
        failure.looksBufferTooSmall

/-! ## One attempt -/

/-- How an attempt ends: with the result of the call, or with another attempt. -/
inductive AttemptExit (ρ : Type) where
  | returned (result : Except BatchError (List (SqlCommandResult ρ)))
  | again (forceDirect : Bool)

/-- What an attempt leaves behind. -/
structure Attempt (ρ : Type) where
  exit : AttemptExit ρ
  events : List Event := []
  marks : Marks

section Attempt

variable {ρ : Type} (call : BatchCall)

/-- The end of an attempt: the `finally` releases the connection it still has. -/
def Attempt.release (exit : AttemptExit ρ) (connection : Option Nat)
    (transaction : Option BatchTransactionGuard) (events : List Event) (marks : Marks) :
    Attempt ρ :=
  match connection with
  | some connection =>
    { exit := exit
      events := events ++ [.release connection transaction (marks connection)]
      marks := unmark marks connection }
  | none => { exit := exit, events := events, marks := marks }

/-- `beginIfNeeded`. -/
def beginBatch (connection : Nat) (answers : AttemptAnswers ρ) (marks : Marks) :
    Except BatchError (Option Nat) × List Event × Marks :=
  if call.transaction then
    let r := beginIfNeeded connection answers.skipOptions answers.transactions marks
    (r.1.map some, r.2)
  else (.ok none, [], marks)

/-- What an attempt does when its transaction did not begin. -/
def afterBeginFailure (context : BatchExecutionContext) (attempt : Nat) (forceDirect : Bool)
    (failure : BatchError) (events : List Event) (marks : Marks) : Attempt ρ :=
  if shouldFallbackTransactionalNativePoolToDirect context failure attempt false
      (!failure.outcomeUnknown && !failure.isTimeout) then
    .release (.again true) (some context.connectionId) none events
      (markConnectionForDiscard marks context.connectionId)
  else if call.transaction && attempt == 0 && failure.isInvalidConnectionId then
    .release (.again forceDirect) (some context.connectionId) none events marks
  else .release (.returned (.error failure)) (some context.connectionId) none events marks

/-- What an attempt does when its commands did not come to a result. -/
def afterCommandFailure (context : BatchExecutionContext) (attempt : Nat) (failure : BatchError)
    (s : CommandState ρ) (events : List Event) : Attempt ρ :=
  if shouldFallbackTransactionalNativePoolToDirect context failure attempt
      s.transaction.rollbackConfirmed false then
    .release (.again true) s.connection (some s.transaction) events
      (match s.connection with
        | some connection => markConnectionForDiscard s.marks connection
        | none => s.marks)
  else .release (.returned (.error failure)) s.connection (some s.transaction) events s.marks

def finishAttempt (answers : TransactionAnswers) (results : List (SqlCommandResult ρ))
    (s : CommandState ρ) (events : List Event) : Attempt ρ :=
  match call.transaction && s.transaction.isActive, s.connection with
  | true, some connection =>
    let r := commit connection answers s.transaction s.marks
    .release (.returned (r.result.map fun _ => results)) s.connection (some r.transaction)
      (events ++ r.events) r.marks
  | _, _ =>
    .release (.returned (.ok results)) s.connection (some s.transaction) events s.marks

/-- One round of the loop over the attempts. -/
def runAttempt (answers : AttemptAnswers ρ) (attempt : Nat) (forceDirect : Bool) (marks : Marks) :
    Attempt ρ :=
  match prepareBatchExecutionContext call.transaction forceDirect answers with
  | .error e => { exit := .returned (.error e), marks := marks }
  | .ok context =>
    match beginBatch call context.connectionId answers marks with
    | (.error e, events, marks) =>
      afterBeginFailure call context attempt forceDirect e events marks
    | (.ok id, events, marks) =>
      let r := executeBatchCommands call answers.commands answers.transactions.rollback
        context.connectionId { transactionId := id } marks
      match r.2 with
      | .error e => afterCommandFailure context attempt e r.1 (events ++ r.1.events)
      | .ok results =>
        finishAttempt call answers.transactions results r.1 (events ++ r.1.events)

/-! ## The call -/

/-- The failure of a call whose attempts are used up. -/
def attemptsUsedUp : BatchError :=
  .failure "Batch transaction start failed after retry" { operation := some "transaction_begin" }

/-- What a call comes to: its result, and the events of each attempt in order. -/
structure BatchRun (ρ : Type) where
  result : Except BatchError (List (SqlCommandResult ρ))
  attempts : List (List Event)

/-- All events of a call. -/
def BatchRun.events (r : BatchRun ρ) : List Event := r.attempts.flatten

/-- The loop over the attempts from number `attempt` on; `left` attempts are left. -/
def attemptLoop (answers : Nat → AttemptAnswers ρ) :
    (left attempt : Nat) → (forceDirect : Bool) → Marks → BatchRun ρ
  | 0, _, _, _ => { result := .error attemptsUsedUp, attempts := [] }
  | left + 1, attempt, forceDirect, marks =>
    let a := runAttempt call (answers attempt) attempt forceDirect marks
    match a.exit with
    | .returned result => { result := result, attempts := [a.events] }
    | .again forceDirect =>
      let rest := attemptLoop answers left (attempt + 1) forceDirect a.marks
      { rest with attempts := a.events :: rest.attempts }

/-- `_executeUnlocked` behind its routing. -/
def executeBatch (answers : Nat → AttemptAnswers ρ) : BatchRun ρ :=
  attemptLoop call answers 2 0 false fun _ => none

end Attempt

end PlugAgente.Batch
