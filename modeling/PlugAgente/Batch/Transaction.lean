import Mathlib

/-!
# The transaction of a batch

`BatchTransactionGuard` and the begin, commit and rollback of
`OdbcBatchTransactionManager`, together with the part of the error inspector and
of the failure mapper that the batch code reads.

An error object is modelled by what the inspectors answer about it and by the
entries of its context that the batch code reads or writes.  The heuristics over
SQLSTATE and message texts that pick a branch of `mapQueryError` are not
modelled: `branch` is the branch they pick.

What the ODBC service does is an input.  An answer is a value, a `Failure`, or a
throw; a call that outlives its `timeout` throws a `TimeoutException`.
-/

namespace PlugAgente.Batch

/-! ## Errors -/

/-- The branches of `OdbcFailureMapperQuery.map` after the one for an unknown
outcome. -/
inductive QueryErrorBranch where
  | cancelled
  | malformedPayload
  | cellDecode
  | rollbackFailed
  | resourceLimit
  | workerCrashed
  | unsupported
  | bufferTooSmall
  | timeout
  | connectionLost
  | transient
  | permissionDenied
  | validation
  | generic
  deriving Repr, DecidableEq

/-- The class of an error object, as far as the batch code asks for it: a domain
`Failure`, one that is a `ConnectionFailure`, a `TimeoutException`, an
`UnsupportedFeatureError`, or anything else. -/
inductive ErrorClass where
  | failure
  | connectionFailure
  | timeoutException
  | unsupportedFeature
  | other
  deriving Repr, DecidableEq

/-- The entries of a failure context that the batch code reads or writes. -/
structure ErrorContext where
  outcomeUnknown : Bool := false
  retryable : Option Bool := none
  timeout : Bool := false
  connectionFailed : Bool := false
  executionNotStarted : Bool := false
  bufferTooSmallReason : Bool := false
  workerBusyReason : Bool := false
  operation : Option String := none
  failedIndex : Option Nat := none
  rollbackConfirmed : Option Bool := none
  deriving Repr, DecidableEq

/-- An error object.  `causeUnknown` is the answer of `outcomeUnknown` about what
stands below the object: its ODBC error or its cause. -/
structure BatchError where
  errorClass : ErrorClass := .other
  causeUnknown : Bool := false
  isTimeout : Bool := false
  isInvalidConnectionId : Bool := false
  looksBufferTooSmall : Bool := false
  branch : QueryErrorBranch := .generic
  message : String := ""
  detail : String := ""
  context : ErrorContext := {}
  deriving Repr, DecidableEq

namespace BatchError

/-- `is Failure`. -/
def isFailure (e : BatchError) : Bool :=
  e.errorClass == .failure || e.errorClass == .connectionFailure

/-- `is ConnectionFailure`. -/
def isConnectionFailure (e : BatchError) : Bool := e.errorClass == .connectionFailure

/-- `is TimeoutException`. -/
def isTimeoutException (e : BatchError) : Bool := e.errorClass == .timeoutException

/-- `is UnsupportedFeatureError`. -/
def isUnsupportedFeature (e : BatchError) : Bool := e.errorClass == .unsupportedFeature

/-- `OdbcErrorInspector.outcomeUnknown`. -/
def outcomeUnknown (e : BatchError) : Bool := e.context.outcomeUnknown || e.causeUnknown

/-- A `QueryExecutionFailure` with a cause: the inspectors look through it. -/
def wrap (cause : BatchError) (message : String) (context : ErrorContext) : BatchError :=
  { errorClass := .failure
    causeUnknown := cause.outcomeUnknown
    isTimeout := cause.isTimeout
    isInvalidConnectionId := cause.isInvalidConnectionId
    looksBufferTooSmall := cause.looksBufferTooSmall
    branch := cause.branch
    message := message
    detail := cause.detail
    context := context }

/-- A `QueryExecutionFailure` without a cause. -/
def failure (message : String) (context : ErrorContext) : BatchError :=
  { errorClass := .failure, message := message, context := context }

/-- The `TimeoutException` of a call that outlives its budget. -/
def timeoutException : BatchError := { errorClass := .timeoutException, isTimeout := true }

/-- `OdbcFailureMapper.mapQueryError`; `unknown` says that the context passed in
has `outcome_unknown`. -/
def mapQueryError (e : BatchError) (operation : Option String) (unknown : Bool := false) :
    BatchError :=
  let base : ErrorContext := { e.context with operation := operation.or e.context.operation }
  if e.outcomeUnknown || unknown then
    e.wrap "Database operation outcome was not confirmed"
      { base with
        outcomeUnknown := true
        retryable := some false
        timeout := base.timeout || e.isTimeout }
  else
    match e.branch with
    | .cancelled => e.wrap "SQL execution cancelled" base
    | .malformedPayload => e.wrap "Invalid ODBC response" base
    | .rollbackFailed => e.wrap "Failed to roll back transaction" base
    | .resourceLimit => e.wrap e.detail { base with retryable := some true }
    | .workerCrashed =>
      e.wrap e.detail { base with connectionFailed := true, retryable := some true }
    | .unsupported => e.wrap e.detail { base with retryable := some false }
    | .bufferTooSmall => e.wrap e.detail { base with bufferTooSmallReason := true }
    | .timeout => e.wrap "Query execution timeout exceeded" { base with timeout := true }
    | .connectionLost => e.wrap e.detail { base with connectionFailed := true }
    | .transient => e.wrap e.detail { base with retryable := some true }
    | .cellDecode | .permissionDenied | .validation | .generic => e.wrap e.detail base

theorem exists_mapQueryError (e : BatchError) (operation : Option String) (unknown : Bool) :
    ∃ message context, e.mapQueryError operation unknown = e.wrap message context ∧
      context.outcomeUnknown = (e.outcomeUnknown || unknown) := by
  unfold mapQueryError
  dsimp only
  split
  case isTrue h => exact ⟨_, _, rfl, h.symm⟩
  case isFalse h =>
    have hknown : e.context.outcomeUnknown = (e.outcomeUnknown || unknown) := by
      simp only [outcomeUnknown, Bool.or_eq_true, not_or, Bool.not_eq_true] at h
      simp [outcomeUnknown, h]
    split <;> exact ⟨_, _, rfl, hknown⟩

@[simp] theorem outcomeUnknown_mapQueryError (e : BatchError) (operation : Option String) :
    (e.mapQueryError operation).outcomeUnknown = e.outcomeUnknown := by
  obtain ⟨message, context, heq, hunknown⟩ := e.exists_mapQueryError operation false
  rw [heq]
  simp [outcomeUnknown, wrap] at hunknown ⊢
  simp [hunknown]

@[simp] theorem isInvalidConnectionId_mapQueryError (e : BatchError) (operation : Option String) :
    (e.mapQueryError operation).isInvalidConnectionId = e.isInvalidConnectionId := by
  obtain ⟨message, context, heq, -⟩ := e.exists_mapQueryError operation false
  rw [heq]
  rfl

end BatchError

/-- What a call of the ODBC service comes to. -/
inductive Answer (α : Type) where
  | ok (value : α)
  | fail (e : BatchError)
  | throw (e : BatchError)
  deriving Repr, DecidableEq

/-- The error of an answer that is no value, however it was reported. -/
def Answer.error? {α : Type} : Answer α → Option BatchError
  | .ok _ => none
  | .fail e => some e
  | .throw e => some e

/-! ## The guard -/

inductive BatchTransactionState where
  | active
  | completing
  | committed
  | rollingBack
  | rolledBack
  | unconfirmed
  deriving Repr, DecidableEq

structure BatchTransactionGuard where
  transactionId : Option Nat
  state : BatchTransactionState := .active
  rollbackError : Option BatchError := none
  deriving Repr, DecidableEq

namespace BatchTransactionGuard

def isActive (g : BatchTransactionGuard) : Bool :=
  g.transactionId.isSome && g.state == .active

def rollbackConfirmed (g : BatchTransactionGuard) : Bool := g.state == .rolledBack

def markUnconfirmed (g : BatchTransactionGuard) : BatchTransactionGuard :=
  { g with state := .unconfirmed }

end BatchTransactionGuard

/-! ## Events and marks -/

/-- `PoolDiscardReason`, as far as the batch code sets it. -/
inductive PoolDiscardReason where
  | suspectConnection
  | outcomeUnknown
  deriving Repr, DecidableEq

/-- What the batch code asks of the outside.  `beginTransaction` holds the error
of a begin that did not succeed; `dispatch` holds the index of the
command and the number of the call of the query runner; `release` holds what the
guard and the mark of the connection are at that moment. -/
inductive Event where
  | beginTransaction (connection : Nat) (failure : Option BatchError)
  | dispatch (connection : Nat) (index : Nat) (call : Nat)
  | commitTransaction (connection : Nat) (confirmed : Bool)
  | rollbackTransaction (connection : Nat) (confirmed : Bool)
  | release (connection : Nat) (transaction : Option BatchTransactionGuard)
      (mark : Option PoolDiscardReason)
  deriving Repr, DecidableEq

/-- The connections marked for discard, with the reason. -/
abbrev Marks := Nat → Option PoolDiscardReason

/-- `markConnectionForDiscard`: a reason that stands is kept when it is the
stronger one. -/
def markConnectionForDiscard (marks : Marks) (connection : Nat) : Marks := fun c =>
  if c = connection then
    if marks c = some .outcomeUnknown then marks c else some .suspectConnection
  else marks c

def markConnectionOutcomeUnknown (marks : Marks) (connection : Nat) : Marks := fun c =>
  if c = connection then some .outcomeUnknown else marks c

/-- A connection that is released loses its mark. -/
def unmark (marks : Marks) (connection : Nat) : Marks := fun c =>
  if c = connection then none else marks c

@[simp] theorem markConnectionOutcomeUnknown_self (marks : Marks) (connection : Nat) :
    markConnectionOutcomeUnknown marks connection connection = some .outcomeUnknown := by
  simp [markConnectionOutcomeUnknown]

theorem isSome_markConnectionOutcomeUnknown {marks : Marks} {c : Nat} (connection : Nat)
    (h : (marks c).isSome = true) :
    (markConnectionOutcomeUnknown marks connection c).isSome = true := by
  unfold markConnectionOutcomeUnknown
  split
  · rfl
  · exact h

/-! ## The transaction manager -/

/-- What the service answers to the transaction calls of one attempt, and whether
the budget is found exhausted before each. -/
structure TransactionAnswers where
  beginExpired : Bool := false
  begin : Answer Nat := .ok 1
  plainBeginExpired : Bool := false
  plainBegin : Answer Nat := .ok 1
  commitExpired : Bool := false
  commit : Answer Unit := .ok ()
  rollback : Answer Unit := .ok ()

/-- `_budgetExhausted`.  Its text shows the entry `timeout` of its context, which
is what `isTimeout` looks for. -/
def budgetExhausted (operation : String) : BatchError :=
  { errorClass := .failure
    isTimeout := true
    message := "Operation budget exhausted before transaction dispatch"
    context :=
      { operation := some operation
        timeout := true
        executionNotStarted := true
        retryable := some false } }

/-- `_beginTransaction`: the result, the events and the marks. -/
def beginTransaction (connection : Nat) (expired : Bool) (answer : Answer Nat) (marks : Marks) :
    Except BatchError Nat × List Event × Marks :=
  if expired then (.error (budgetExhausted "transaction_begin"), [], marks)
  else
    match answer with
    | .ok id => (.ok id, [.beginTransaction connection none], marks)
    | .fail e =>
      (.error e, [.beginTransaction connection (some e)],
        if e.outcomeUnknown then markConnectionOutcomeUnknown marks connection else marks)
    | .throw e =>
      if e.isTimeoutException then
        (.error e, [.beginTransaction connection (some e)],
          markConnectionOutcomeUnknown marks connection)
      else
        (.error (e.mapQueryError (some "transaction_begin")),
          [.beginTransaction connection (some e)],
          if e.outcomeUnknown then markConnectionOutcomeUnknown marks connection else marks)

def beginFailure (e : BatchError) : BatchError :=
  if e.isFailure && e.context.executionNotStarted then e
  else if e.outcomeUnknown || e.isTimeoutException then
    e.wrap "Timed out while starting the transaction"
      { operation := some "transaction_begin"
        timeout := true
        retryable := some false
        outcomeUnknown := true }
  else
    e.wrap
      (if e.isUnsupportedFeature then "Transaction options are not supported by the ODBC runtime"
        else "Failed to start transaction")
      { operation := some "transaction_begin", retryable := some false }

/-- `beginIfNeeded` of a transactional batch; `skipOptions` says that the options
of the transaction are known to be unsupported. -/
def beginIfNeeded (connection : Nat) (skipOptions : Bool) (answers : TransactionAnswers)
    (marks : Marks) : Except BatchError Nat × List Event × Marks :=
  match beginTransaction connection answers.beginExpired answers.begin marks with
  | (.ok id, events, marks) => (.ok id, events, marks)
  | (.error e, events, marks) =>
    if !e.outcomeUnknown && e.isUnsupportedFeature && !skipOptions then
      match beginTransaction connection answers.plainBeginExpired answers.plainBegin marks with
      | (.ok id, plain, marks) => (.ok id, events ++ plain, marks)
      | (.error e, plain, marks) => (.error (beginFailure e), events ++ plain, marks)
    else (.error (beginFailure e), events, marks)

/-- What an operation on the guard leaves behind. -/
structure GuardStep (α : Type) where
  result : α
  transaction : BatchTransactionGuard
  events : List Event := []
  marks : Marks

/-- `rollbackIfNeeded` through the `rollback` of the guard: at most one rollback
is dispatched, and one that is not confirmed marks the connection. -/
def rollback (connection : Nat) (answer : Answer Unit) (g : BatchTransactionGuard)
    (marks : Marks) : GuardStep Unit :=
  if !g.isActive then ⟨(), g, [], marks⟩
  else
    match answer with
    | .ok _ =>
      ⟨(), { g with state := .rolledBack, rollbackError := none },
        [.rollbackTransaction connection true], marks⟩
    | .fail e | .throw e =>
      let mapped := e.mapQueryError (some "transaction_rollback")
      ⟨(), { g with
          state := .unconfirmed
          rollbackError := some (e.wrap "Transaction rollback was not confirmed"
            { mapped.context with
              operation := some "transaction_rollback"
              outcomeUnknown := true
              retryable := some false }) },
        [.rollbackTransaction connection false], markConnectionOutcomeUnknown marks connection⟩

def commit (connection : Nat) (answers : TransactionAnswers) (g : BatchTransactionGuard)
    (marks : Marks) : GuardStep (Except BatchError Unit) :=
  if g.transactionId.isNone then ⟨.ok (), g, [], marks⟩
  else if answers.commitExpired then
    ⟨.error (budgetExhausted "transaction_commit"), g, [], marks⟩
  else if !g.isActive then
    ⟨.error (.failure "Transaction finalization already started" {}), g, [], marks⟩
  else
    match answers.commit with
    | .ok _ =>
      ⟨.ok (), { g with state := .committed }, [.commitTransaction connection true], marks⟩
    | .fail e | .throw e =>
      let mapped := e.mapQueryError (some "transaction_commit")
      ⟨.error (e.wrap "Transaction commit was not confirmed"
          { mapped.context with
            operation := some "transaction_commit"
            outcomeUnknown := true
            retryable := some false
            timeout := mapped.context.timeout || e.isTimeout }),
        g.markUnconfirmed, [.commitTransaction connection false],
        markConnectionOutcomeUnknown marks connection⟩

end PlugAgente.Batch
