import PlugAgente.Dart.Text
import PlugAgente.Machine.Transition

/-!
# Running an action under an idempotency key

`AgentActionExecutionOrchestrator.run` for the calls of one action and one trimmed idempotency
key.  The first call reserves the key with a completer before it waits for anything; the calls
that find the key reserved wait for that completer.  The leader looks for a persisted execution,
and creates, saves and enqueues one if there is none.  The completer is completed with what the
leader comes to, and a callback of its future removes the key.

What the calls share is the entry of `_idempotentExecutions` under their key, the entry of the
queue's own map, and the rows of the table for the action and the key.  An execution is named by
the call that has created it: the code gives it a fresh UUID.  Which of several rows a lookup
answers with depends on their request times, and is left open.
-/

namespace PlugAgente.Execution

open Dart

/-! ## Requests -/

/-- `AgentActionExecutionRequest`, as far as `run` reads it. -/
structure AgentActionExecutionRequest where
  actionId : Text
  idempotencyKey : Option Text := none
  returnWhenQueued : Bool := false
  hasIoSession : Bool := false
  deriving DecidableEq, Repr

def canonicalOptionalRequestString (value : Option Text) : Option Text :=
  match value with
  | none => none
  | some value => if trim value = [] then none else some (trim value)

/-- The request is for the action and has the key.  The gates have loaded the definition of the
trimmed action id. -/
def AgentActionExecutionRequest.IsFor (request : AgentActionExecutionRequest)
    (actionId key : Text) : Prop :=
  trim request.actionId = actionId ∧
    canonicalOptionalRequestString request.idempotencyKey = some key

instance (request : AgentActionExecutionRequest) (actionId key : Text) :
    Decidable (request.IsFor actionId key) :=
  inferInstanceAs (Decidable (_ ∧ _))

/-! ## Calls -/

/-- An execution of the action that has the key. -/
inductive ExecutionRef
  | earlier (id : Text)
  | createdBy (call : Nat)
  deriving DecidableEq, Repr

inductive RunFailure
  /-- `ACTION_IO_EXECUTOR_UNAVAILABLE`: a session does not run here. -/
  | ioExecutorUnavailable
  | lookupFailed
  | startFailed
  | executionFailed
  deriving DecidableEq, Repr

/-- What a call of `run` comes to. -/
inductive RunResult
  | success (execution : ExecutionRef)
  | failure (cause : RunFailure)
  | threw
  deriving DecidableEq, Repr

/-- The task that a leader has given to the queue. -/
inductive TaskStage
  | waiting
  | started
  | runnerStarted
  /-- The future of the queue is completed. -/
  | done (succeeded : Bool)
  deriving DecidableEq, Repr

inductive RunStage
  /-- The call has reserved the key, and waits for `_findPersistedIdempotentExecution`. -/
  | leaderLookup
  /-- It waits for the transaction of the first save. -/
  | firstSave
  /-- The first save is committed, and has not returned. -/
  | firstSaved
  /-- It waits for `recordEnqueued`. -/
  | auditing
  | enqueued (task : TaskStage)
  /-- The queue has given it the future of another call. -/
  | joined (other : Nat)
  /-- The call has found the key reserved, and waits for its own lookup. -/
  | followerLookup (leader : Nat)
  | following (leader : Nat)
  | ended
  deriving DecidableEq, Repr

/-- A call of `run`.  `completed` is what its completer was completed with. -/
structure RunCall where
  request : AgentActionExecutionRequest
  stage : RunStage
  completed : Option RunResult := none
  returned : Option RunResult := none
  deriving DecidableEq, Repr

/-- The call returns, and its completer is completed with the same. -/
def RunCall.settle (c : RunCall) (result : RunResult) : RunCall :=
  { c with stage := .ended, completed := some result, returned := some result }

/-- The call returns, and has no completer to complete. -/
def RunCall.leave (c : RunCall) (result : RunResult) : RunCall :=
  { c with stage := .ended, returned := some result }

/-- How a step of `_startExecution` ends.  `run` catches what is an `Exception`, and nothing
else. -/
inductive StartOutcome
  | ok
  | failure
  | exception
  | error
  deriving DecidableEq, Repr

/-- What becomes of a leader whose start does not go on. -/
def RunCall.startFailed (c : RunCall) (outcome : StartOutcome) : RunCall :=
  match outcome with
  | .error => c.leave .threw
  | _ => c.settle (.failure .startFailed)

/-- What the completion of an execution comes to. -/
inductive Completion
  | succeeded
  | failed
  | threw
  deriving DecidableEq, Repr

/-- The end of the completion.  The completer gets a failure for what was thrown, and a call that
has returned when its execution was queued does not return again. -/
def RunCall.complete (c : RunCall) (execution : ExecutionRef) (completion : Completion) :
    RunCall :=
  match completion with
  | .succeeded =>
    { c with
      stage := .ended
      completed := some (.success execution)
      returned := c.returned.or (some (.success execution)) }
  | .failed =>
    { c with
      stage := .ended
      completed := some (.failure .executionFailed)
      returned := c.returned.or (some (.failure .executionFailed)) }
  | .threw =>
    { c with
      stage := .ended
      completed := some (.failure .executionFailed)
      returned := c.returned.or (some .threw) }

/-! ## The machine -/

inductive LookupAnswer
  | found (execution : ExecutionRef)
  | empty
  | fails
  | throws
  deriving DecidableEq, Repr

structure RunsState where
  /-- The rows of the action with the key. -/
  rows : List ExecutionRef := []
  calls : List RunCall := []
  /-- The entry of `_idempotentExecutions`: the call whose completer it is. -/
  reserved : Option Nat := none
  /-- The entry of `_idempotentResults` of the queue. -/
  queueEntry : Option Nat := none
  /-- The calls whose runner was started, once for all the attempts of a task. -/
  runnerStarts : List Nat := []
  deriving DecidableEq, Repr

inductive RunAction
  | call (request : AgentActionExecutionRequest)
  | lookup (i : Nat) (answer : LookupAnswer)
  | firstSave (i : Nat) (outcome : StartOutcome)
  | firstSaveReturns (i : Nat) (outcome : StartOutcome)
  /-- `recordEnqueued` returns, and the queue is disposed or not. -/
  | audited (i : Nat) (outcome : StartOutcome) (disposed : Bool)
  | taskStarts (i : Nat)
  | runnerStarts (i : Nat)
  | queueCompletes (i : Nat) (succeeded : Bool)
  | completes (i : Nat) (completion : Completion)
  | follow (i : Nat)
  /-- The callback of the completer's future removes the key. -/
  | forget
  | queueForgets
  deriving DecidableEq, Repr

namespace RunsState

variable (s : RunsState)

def setCall (i : Nat) (c : RunCall) : RunsState :=
  { s with calls := s.calls.set i c }

/-- `run`, up to its first await. -/
def called (request : AgentActionExecutionRequest) : RunsState :=
  if request.hasIoSession then
    { s with
      calls := s.calls ++
        [{ request, stage := .ended, returned := some (.failure .ioExecutorUnavailable) }] }
  else
    match s.reserved with
    | some leader =>
      let stage := if request.returnWhenQueued then .followerLookup leader else .following leader
      { s with calls := s.calls ++ [{ request, stage }] }
    | none =>
      { s with
        calls := s.calls ++ [{ request, stage := .leaderLookup }]
        reserved := some s.calls.length }

/-- The rows that a lookup may answer with. -/
def answersWith (answer : LookupAnswer) : Bool :=
  match answer with
  | .found execution => s.rows.contains execution
  | .empty => s.rows.isEmpty
  | .fails | .throws => true

def leaderLooked (i : Nat) (c : RunCall) (answer : LookupAnswer) : RunsState :=
  match answer with
  | .found execution => s.setCall i (c.settle (.success execution))
  | .empty => s.setCall i { c with stage := .firstSave }
  | .fails => s.setCall i (c.settle (.failure .lookupFailed))
  | .throws => s.setCall i (c.leave .threw)

/-- The lookup of a call that returns when its execution is queued, and found the key
reserved. -/
def followerLooked (i : Nat) (c : RunCall) (leader : Nat) (answer : LookupAnswer) : RunsState :=
  match answer with
  | .found execution => s.setCall i (c.leave (.success execution))
  | .empty => s.setCall i { c with stage := .following leader }
  | .fails => s.setCall i (c.leave (.failure .lookupFailed))
  | .throws => s.setCall i (c.leave .threw)

/-- The transaction of the first save. -/
def firstSaved (i : Nat) (c : RunCall) (outcome : StartOutcome) : RunsState :=
  match outcome with
  | .ok =>
    { s.setCall i { c with stage := .firstSaved } with rows := .createdBy i :: s.rows }
  | refused => s.setCall i (c.startFailed refused)

/-- `ActionExecutionQueue.enqueue`, and the return of a call that does not wait for more. -/
def enqueue (i : Nat) (c : RunCall) (disposed : Bool) : RunsState :=
  let returned :=
    if c.request.returnWhenQueued then some (.success (.createdBy i)) else none
  if disposed then
    s.setCall i { c with stage := .enqueued (.done false), returned }
  else
    match s.queueEntry with
    | some other => s.setCall i { c with stage := .joined other, returned }
    | none =>
      { s.setCall i { c with stage := .enqueued .waiting, returned } with queueEntry := some i }

/-- The future of the queue may be completed in this way. -/
def mayComplete (task : TaskStage) (succeeded : Bool) : Bool :=
  match task with
  | .waiting => !succeeded
  | .started | .runnerStarted => true
  | .done _ => false

/-- What a step does to the call that it is about. -/
def callStep (i : Nat) (c : RunCall) : RunAction → Option RunsState
  | .lookup _ answer =>
    if s.answersWith answer then
      match c.stage with
      | .leaderLookup => some (s.leaderLooked i c answer)
      | .followerLookup leader => some (s.followerLooked i c leader answer)
      | _ => none
    else
      none
  | .firstSave _ outcome =>
    match c.stage with
    | .firstSave => some (s.firstSaved i c outcome)
    | _ => none
  | .firstSaveReturns _ outcome =>
    match c.stage with
    | .firstSaved =>
      match outcome with
      | .ok => some (s.setCall i { c with stage := .auditing })
      | refused => some (s.setCall i (c.startFailed refused))
    | _ => none
  | .audited _ outcome disposed =>
    match c.stage with
    | .auditing =>
      match outcome with
      | .ok => some (s.enqueue i c disposed)
      | refused => some (s.setCall i (c.startFailed refused))
    | _ => none
  | .taskStarts _ =>
    match c.stage with
    | .enqueued .waiting => some (s.setCall i { c with stage := .enqueued .started })
    | _ => none
  | .runnerStarts _ =>
    match c.stage with
    | .enqueued .started =>
      some { s.setCall i { c with stage := .enqueued .runnerStarted } with
        runnerStarts := s.runnerStarts ++ [i] }
    | _ => none
  | .queueCompletes _ succeeded =>
    match c.stage with
    | .enqueued task =>
      if mayComplete task succeeded then
        some (s.setCall i { c with stage := .enqueued (.done succeeded) })
      else
        none
    | _ => none
  | .completes _ completion =>
    match c.stage with
    | .enqueued (.done true) =>
      if completion = .succeeded then
        some (s.setCall i (c.complete (.createdBy i) completion))
      else
        none
    | .enqueued (.done false) =>
      if completion = .succeeded then none
      else some (s.setCall i (c.complete (.createdBy i) completion))
    | .joined other => some (s.setCall i (c.complete (.createdBy other) completion))
    | _ => none
  | .follow _ =>
    match c.stage with
    | .following leader =>
      match (s.calls[leader]?).bind RunCall.completed with
      | some result => some (s.setCall i (c.leave result))
      | none => none
    | _ => none
  | _ => none

/-- The call that a step is about. -/
def subject : RunAction → Option Nat
  | .lookup i _ | .firstSave i _ | .firstSaveReturns i _ | .audited i _ _ | .taskStarts i
  | .runnerStarts i | .queueCompletes i _ | .completes i _ | .follow i => some i
  | .call _ | .forget | .queueForgets => none

/-- The callback of the completer that the key is reserved with. -/
def forgotten : Option RunsState :=
  match s.reserved with
  | some leader =>
    if ((s.calls[leader]?).bind RunCall.completed).isSome then some { s with reserved := none }
    else none
  | none => none

/-- The queue removes the entry of a future that is completed. -/
def queueForgotten : Option RunsState :=
  match s.queueEntry with
  | some owner =>
    match (s.calls[owner]?).map RunCall.stage with
    | some (.enqueued (.done _)) | some .ended => some { s with queueEntry := none }
    | _ => none
  | none => none

end RunsState

/-- The calls of `run` for an action with an idempotency key. -/
def runs (actionId key : Text) : Machine RunsState RunAction where
  start s := s.calls = [] ∧ s.reserved = none ∧ s.queueEntry = none ∧ s.runnerStarts = [] ∧
    ∀ e ∈ s.rows, ∃ id, e = .earlier id
  step s
    | .call request => if request.IsFor actionId key then some (s.called request) else none
    | .forget => s.forgotten
    | .queueForgets => s.queueForgotten
    | a =>
      match RunsState.subject a with
      | some i =>
        match s.calls[i]? with
        | some c => s.callStep i c a
        | none => none
      | none => none

end PlugAgente.Execution
