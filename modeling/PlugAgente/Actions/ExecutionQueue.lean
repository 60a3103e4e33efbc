import PlugAgente.Dart.Text
import PlugAgente.Machine.Transition

/-!
# The action execution queue

`ActionExecutionQueue` as a machine.  A state holds every call of `enqueue` that was ever
made, by its position in `calls`, and for each action the number of its running tasks, the
identifiers of their executions and the calls that wait.

A task that was started by `enqueue` itself is awaited by `_runNow`, which releases its slot
in the turn in which the task ends.  A task that was started by a drain completes its future
first, and the slot is released by a callback of that future, in a later turn.  A task does
not come back to the queue before its first `await`.

`_pendingByActionId` is walked in the order in which actions came to have a queue; the
machine leaves that order open.  Metrics, messages and the waiters for an idle queue are left
out.
-/

namespace PlugAgente.Actions

inductive AgentActionConcurrencyBehavior where
  | allowParallel
  | enqueue
  | reject
  | ignore
  deriving DecidableEq, Repr

/-- `AgentActionQueuePolicy`; definitions with negative numbers are refused when they are
saved, and the timeout of the queue is a timer. -/
structure AgentActionQueuePolicy where
  maxConcurrent : Nat := 1
  maxQueued : Nat := 100
  concurrencyBehavior : AgentActionConcurrencyBehavior := .enqueue
  deriving DecidableEq, Repr

/-- `AgentActionQueueRequest`, without its task. -/
structure AgentActionQueueRequest where
  actionId : String
  executionId : String
  policy : AgentActionQueuePolicy := {}
  idempotencyKey : Option String := none
  deriving DecidableEq, Repr

/-- The codes of the failures of the queue. -/
inductive FailureCode where
  | cleanupUnknown
  | maintenanceMode
  | queueDisposed
  | queueConcurrencyRejected
  | queueIgnored
  | queueFull
  | queueTimeout
  | queueCancelled
  deriving DecidableEq, Repr

/-- What a future is completed with: a failure of the queue, the result of the task, or the
failure for a task that threw. -/
inductive Outcome where
  | queue (code : FailureCode)
  | result
  | unexpectedTaskError
  deriving DecidableEq, Repr

/-- Where a call of `enqueue` stands. -/
inductive Status where
  /-- It is in the queue of its action. -/
  | waiting
  /-- Its task is under way, and `_runNow` awaits it. -/
  | runningNow
  /-- Its task was started by a drain and is under way. -/
  | runningQueued
  /-- Its future is complete, and the callback that releases the slot is due. -/
  | settling
  /-- It follows the future of an earlier call. -/
  | replaying (source : Nat)
  | done
  deriving DecidableEq, Repr

/-- A call of `enqueue`: `completions` are those of the future it returned, `starts` counts
the invocations of its task, and `holdsSlot` says that it counts as running. -/
structure Call where
  request : AgentActionQueueRequest
  status : Status
  completions : List Outcome := []
  starts : Nat := 0
  holdsSlot : Bool := false
  deriving DecidableEq, Repr

def Call.isCompleted (c : Call) : Bool :=
  !c.completions.isEmpty

/-- The task of the call is under way. -/
def Call.isRunning (c : Call) : Bool :=
  c.status == .runningNow || c.status == .runningQueued

/-- The call once its task was invoked. -/
def Call.begun (c : Call) (status : Status) : Call :=
  { c with status := status, starts := c.starts + 1, holdsSlot := true }

/-- The call once its slot was released. -/
def Call.released (c : Call) : Call :=
  { c with holdsSlot := false }

structure ActionExecutionQueue where
  runningByActionId : String → Nat := fun _ => 0
  runningExecutionIdsByActionId : String → List String := fun _ => []
  unconfirmedCleanup : List String := []
  pendingByActionId : String → List Nat := fun _ => []
  idempotentResults : List (String × Nat) := []
  disposed : Bool := false
  maintenanceOperation : Option String := none
  calls : List Call := []
  /-- The calls of each action whose tasks were started, in that order. -/
  started : String → List Nat := fun _ => []

/-- The events.  The second argument of `enqueue` is the answer of the maintenance gate, and
that of `cancelQueued` the action in whose queue the execution is found. -/
inductive Event where
  | enqueue (request : AgentActionQueueRequest) (allowsInternalWork : Bool)
  | cancelQueued (executionId : String) (actionId : String)
  | timeout (call : Nat)
  | finish (call : Nat) (threw : Bool)
  /-- The callback of a future that is complete. -/
  | settle (call : Nat)
  /-- A call that follows another one is given its result. -/
  | deliver (call : Nat)
  /-- A complete result is taken out of the idempotency map. -/
  | evict (key : String)
  | retainUnconfirmedExecution (executionId : String)
  | pauseAdmissionForMaintenance (operationId : String)
  | resumeAdmissionAfterMaintenance (operationId : String)
  | dispose
  deriving DecidableEq, Repr

namespace ActionExecutionQueue

variable (s : ActionExecutionQueue)

def hasUnconfirmedCleanup (actionId : String) : Bool :=
  (s.runningExecutionIdsByActionId actionId).any fun id => s.unconfirmedCleanup.contains id

def canRunNow (actionId : String) (policy : AgentActionQueuePolicy) : Bool :=
  !s.hasUnconfirmedCleanup actionId &&
    decide (s.runningByActionId actionId < policy.maxConcurrent)

def disposedFailure (actionId : String) (allowsInternalWork : Bool) : Option FailureCode :=
  if s.hasUnconfirmedCleanup actionId then some .cleanupUnknown
  else if s.maintenanceOperation.isSome && !allowsInternalWork then some .maintenanceMode
  else if !s.disposed then none
  else some .queueDisposed

/-- Change a call. -/
def modifyCall (k : Nat) (f : Call → Call) : ActionExecutionQueue :=
  { s with calls := s.calls.modify k f }

/-- A new call. -/
def addCall (c : Call) : ActionExecutionQueue :=
  { s with calls := s.calls ++ [c] }

/-- `_beginRunning` for a call, with the invocation of its task. -/
def start (k : Nat) (request : AgentActionQueueRequest) (status : Status) :
    ActionExecutionQueue :=
  let a := request.actionId
  let ids := s.runningExecutionIdsByActionId a
  { s with
    runningByActionId := Function.update s.runningByActionId a (s.runningByActionId a + 1)
    runningExecutionIdsByActionId := Function.update s.runningExecutionIdsByActionId a
      (if ids.contains request.executionId then ids else ids ++ [request.executionId])
    started := Function.update s.started a (s.started a ++ [k])
    calls := s.calls.modify k fun c => c.begun status }

/-- `_endRunning` for a call. -/
def endRunning (k : Nat) (request : AgentActionQueueRequest) : ActionExecutionQueue :=
  let a := request.actionId
  if s.unconfirmedCleanup.contains request.executionId then s
  else
    { s with
      runningExecutionIdsByActionId := Function.update s.runningExecutionIdsByActionId a
        ((s.runningExecutionIdsByActionId a).filter fun id => id != request.executionId)
      runningByActionId := Function.update s.runningByActionId a (s.runningByActionId a - 1)
      calls := s.calls.modify k Call.released }

/-- The future of a call is completed, and the call stands elsewhere. -/
def complete (k : Nat) (outcome : Outcome) (status : Status) : ActionExecutionQueue :=
  s.modifyCall k fun c =>
    { c with completions := c.completions ++ [outcome], status := status }

/-- The loop of `_drain`, over the queue of the action. -/
def drainLoop (actionId : String) : List Nat → ActionExecutionQueue → ActionExecutionQueue
  | [], s => s
  | k :: rest, s =>
    match s.calls[k]? with
    | none => s
    | some c =>
      if s.canRunNow actionId c.request.policy then
        let s := { s with pendingByActionId := Function.update s.pendingByActionId actionId rest }
        if c.isCompleted then drainLoop actionId rest s
        else drainLoop actionId rest (s.start k c.request .runningQueued)
      else s

def drain (actionId : String) : ActionExecutionQueue :=
  if s.disposed then s else drainLoop actionId (s.pendingByActionId actionId) s

/-- A call whose future is complete at once. -/
def refuse (request : AgentActionQueueRequest) (code : FailureCode) : ActionExecutionQueue :=
  s.addCall { request := request, status := .done, completions := [.queue code] }

/-- `_runNow`, up to its `await`. -/
def runNow (request : AgentActionQueueRequest) : ActionExecutionQueue :=
  if s.disposed then s.refuse request .queueDisposed
  else
    (s.addCall { request := request, status := .waiting }).start s.calls.length request .runningNow

def enqueuePending (request : AgentActionQueueRequest) : ActionExecutionQueue :=
  let queue := s.pendingByActionId request.actionId
  if s.disposed then s.refuse request .queueDisposed
  else if request.policy.maxQueued ≤ queue.length then s.refuse request .queueFull
  else
    { s.addCall { request := request, status := .waiting } with
      pendingByActionId := Function.update s.pendingByActionId request.actionId
        (queue ++ [s.calls.length]) }.drain request.actionId

def schedule (request : AgentActionQueueRequest) : ActionExecutionQueue :=
  if request.policy.concurrencyBehavior = .allowParallel ||
      s.canRunNow request.actionId request.policy then s.runNow request
  else
    match request.policy.concurrencyBehavior with
    | .reject => s.refuse request .queueConcurrencyRejected
    | .ignore => s.refuse request .queueIgnored
    | .enqueue => s.enqueuePending request
    | .allowParallel => s.runNow request

def idempotencyKeyFor (request : AgentActionQueueRequest) : Option String :=
  match request.idempotencyKey with
  | none => none
  | some key =>
    let trimmed := Dart.trim key.toList
    if trimmed.isEmpty then none
    else some (request.actionId ++ ":" ++ String.ofList trimmed)

def enqueue (request : AgentActionQueueRequest) (allowsInternalWork : Bool) :
    ActionExecutionQueue :=
  match s.disposedFailure request.actionId allowsInternalWork with
  | some code => s.refuse request code
  | none =>
    match idempotencyKeyFor request with
    | none => s.schedule request
    | some key =>
      match s.idempotentResults.lookup key with
      | some source => s.addCall { request := request, status := .replaying source }
      | none =>
        { s.schedule request with
          idempotentResults := s.idempotentResults ++ [(key, s.calls.length)] }

/-- `cancelQueued`, with the action whose queue has the execution. -/
def cancelQueued (executionId actionId : String) : ActionExecutionQueue :=
  if s.disposed then s
  else
    let trimmed := String.ofList (Dart.trim executionId.toList)
    let queue := s.pendingByActionId actionId
    match queue.find? fun k =>
        (s.calls[k]?.map fun c => c.request.executionId) == some trimmed with
    | none => s
    | some k =>
      { s with
        pendingByActionId :=
          Function.update s.pendingByActionId actionId (queue.erase k) }.complete k
            (.queue .queueCancelled) .done

/-- The timer of a call that waits: `_completeTimeout` and `_removeTimedOutPending`. -/
def timeout (k : Nat) : Option ActionExecutionQueue :=
  match s.calls[k]? with
  | some ⟨request, .waiting, _, _, _⟩ =>
    let a := request.actionId
    let s := s.complete k (.queue .queueTimeout) .done
    some { s with
      pendingByActionId := Function.update s.pendingByActionId a
        ((s.pendingByActionId a).filter fun n =>
          !((s.calls[n]?.map Call.isCompleted).getD false)) }
  | _ => none

/-- What a task comes to. -/
def taskOutcome (threw : Bool) : Outcome :=
  if threw then .unexpectedTaskError else .result

/-- The slot of a call is released, and what waits is drained. -/
def release (k : Nat) (request : AgentActionQueueRequest) : ActionExecutionQueue :=
  let s := s.endRunning k request
  if s.disposed then s else s.drain request.actionId

/-- A task ends: the continuation of `_runNow`, or that of `_run`. -/
def finish (k : Nat) (threw : Bool) : Option ActionExecutionQueue :=
  match s.calls[k]? with
  | some ⟨request, .runningNow, _, _, _⟩ =>
    some ((s.complete k (taskOutcome threw) .done).release k request)
  | some ⟨_, .runningQueued, completions, _, _⟩ =>
    if completions.isEmpty then some (s.complete k (taskOutcome threw) .settling)
    else some (s.modifyCall k fun c => { c with status := .settling })
  | _ => none

/-- The callback of `pending.future.whenComplete`. -/
def settle (k : Nat) : Option ActionExecutionQueue :=
  match s.calls[k]? with
  | some ⟨request, .settling, _, _, _⟩ =>
    some ((s.modifyCall k fun c => { c with status := .done }).release k request)
  | _ => none

/-- The `then` of a call that follows another one. -/
def deliver (k : Nat) : Option ActionExecutionQueue :=
  match s.calls[k]? with
  | some ⟨_, .replaying source, _, _, _⟩ =>
    match (s.calls[source]?).bind fun c => c.completions.head? with
    | some outcome => some (s.complete k outcome .done)
    | none => none
  | _ => none

/-- The `whenComplete` of a stored result. -/
def evict (key : String) : Option ActionExecutionQueue :=
  match s.idempotentResults.lookup key with
  | some k =>
    if (s.calls[k]?.map Call.isCompleted).getD false then
      some { s with
        idempotentResults := s.idempotentResults.filter fun entry => entry.1 != key }
    else none
  | none => none

/-- `retainUnconfirmedExecution`; it throws unless the execution is running. -/
def retainUnconfirmedExecution (executionId : String) : Option ActionExecutionQueue :=
  if s.calls.any fun c =>
      (s.runningExecutionIdsByActionId c.request.actionId).contains executionId then
    some { s with unconfirmedCleanup := s.unconfirmedCleanup ++ [executionId] }
  else none

/-- `pauseAdmissionForMaintenance`; it throws if the maintenance is of another operation. -/
def pauseAdmissionForMaintenance (operationId : String) : Option ActionExecutionQueue :=
  match s.maintenanceOperation with
  | none => some { s with maintenanceOperation := some operationId }
  | some current => if current = operationId then some s else none

def resumeAdmissionAfterMaintenance (operationId : String) : ActionExecutionQueue :=
  if s.maintenanceOperation = some operationId then { s with maintenanceOperation := none } else s

/-- `failDisposed` of a call in a queue. -/
def failDisposed (k : Nat) (c : Call) : Call :=
  if (s.pendingByActionId c.request.actionId).contains k && !c.isCompleted then
    { c with completions := c.completions ++ [.queue .queueDisposed], status := .done }
  else c

def dispose : ActionExecutionQueue :=
  if s.disposed then s
  else
    { s with
      disposed := true
      pendingByActionId := fun _ => []
      calls := s.calls.mapIdx s.failDisposed }

end ActionExecutionQueue

def actionExecutionQueue : Machine ActionExecutionQueue Event where
  start s := s = {}
  step s
    | .enqueue request allowsInternalWork => some (s.enqueue request allowsInternalWork)
    | .cancelQueued executionId actionId => some (s.cancelQueued executionId actionId)
    | .timeout k => s.timeout k
    | .finish k threw => s.finish k threw
    | .settle k => s.settle k
    | .deliver k => s.deliver k
    | .evict key => s.evict key
    | .retainUnconfirmedExecution executionId => s.retainUnconfirmedExecution executionId
    | .pauseAdmissionForMaintenance operationId => s.pauseAdmissionForMaintenance operationId
    | .resumeAdmissionAfterMaintenance operationId =>
      some (s.resumeAdmissionAfterMaintenance operationId)
    | .dispose => some s.dispose

end PlugAgente.Actions
