import PlugAgente.Machine.Transition
import PlugAgente.Queue.LaneCapacity

/-!
# The SQL execution queue

`SqlExecutionQueue` as a machine.  A state holds every request that was ever
submitted, the lanes with the numbers of those that wait, the worker counters and
the cancellation tokens.  The actions are the events of the source: a submission,
the queue-wait timer of a caller, the cancellation of a token and its delivery to
a listener, an early release, the end of a task, the two points at which a caller
goes on, maintenance and `dispose`.

`_processQueue` has no `await`, but it calls tasks, and a task may release its
worker or come back to the queue before it waits, so a loop may be entered while
another one is under way.  `loops` counts the loops that are under way, and
`round` is one round of one of them.  Rounds and events may come in any order,
which leaves more runs than the event loop of the source can make.

What only feeds metrics and logs is left out, and so are `waitForActiveWorkers`
and the waiting part of `disposeGracefully`, which change nothing.
-/

namespace PlugAgente.Queue

/-! ## Failures of the queue -/

/-- A value in the context of a failure. -/
inductive ContextValue where
  | bool (b : Bool)
  | int (n : Int)
  | text (t : String)
  deriving DecidableEq, Repr

/-- A failure that the queue makes itself. -/
structure QueueFailure where
  message : String
  context : List (String × ContextValue)
  deriving DecidableEq, Repr

namespace QueueFailure

/-- The failure tells its caller that the execution did not start. -/
def saysNotStarted (f : QueueFailure) : Bool :=
  f.context.lookup "execution_not_started" = some (.bool true) ||
    f.context.lookup "worker_started" = some (.bool false)

/-- An entry that is there only when the value is. -/
def optionalText (key : String) : Option String → List (String × ContextValue)
  | some t => [(key, .text t)]
  | none => []

/-- The refusal of `_admitSubmission` during maintenance. -/
def maintenance : QueueFailure where
  message := "O agente está em preparação para manutenção."
  context := [("reason", .text "maintenance"), ("retryable", .bool true)]

/-- `SqlExecutionBackpressure.queueContext`. -/
def queueContext (reason : String) (requestId : Option String)
    (queueSize maxQueueSize activeWorkers maxWorkers : Int) (userMessage : Option String) :
    List (String × ContextValue) :=
  [("reason", .text reason), ("rpc_error_code", .int (-32013)), ("retryable", .bool true),
    ("queue_size", .int queueSize), ("max_queue_size", .int maxQueueSize),
    ("active_workers", .int activeWorkers), ("max_workers", .int maxWorkers)] ++
  optionalText "request_id" requestId ++ optionalText "user_message" userMessage

/-- What a busy queue tells the user. -/
def busyMessage : String :=
  "O agente esta ocupado executando consultas. Aguarde alguns instantes e tente novamente."

/-- `SqlExecutionBackpressure.queueFullFailure`. -/
def queueFull (requestId : Option String)
    (queueSize maxQueueSize activeWorkers maxWorkers : Int) : QueueFailure where
  message := "SQL execution queue is full; system is under heavy load"
  context :=
    queueContext "sql_queue_full" requestId queueSize maxQueueSize activeWorkers maxWorkers
      (some busyMessage)

/-- `SqlExecutionBackpressure.queueDisposedFailure`. -/
def queueDisposed (message : String) (requestId : Option String) : QueueFailure where
  message := message
  context :=
    [("reason", .text "queue_disposed")] ++ optionalText "request_id" requestId ++
      [("user_message",
        .text "A fila de execucao SQL foi encerrada. Reconecte o agente e tente novamente.")]

/-- The refusal of a slot weight that does not fit its lane. -/
def invalidSlotWeight : QueueFailure where
  message := "SQL queue slot weight must fit the configured lane capacity"
  context :=
    [("reason", .text "invalid_slot_weight"), ("execution_not_started", .bool true),
      ("retryable", .bool false)]

def cancelledBeforeStart : QueueFailure where
  message := "SQL execution cancelled before dispatch"
  context :=
    [("reason", .text "execution_cancelled"), ("cancelled", .bool true),
      ("execution_not_started", .bool true), ("retryable", .bool false),
      ("worker_started", .bool false)]

/-- The failure of a task that threw. -/
def unexpectedTaskError (requestId : Option String) : QueueFailure where
  message := "SQL execution task failed with unexpected error"
  context :=
    [("reason", .text "unexpected_task_error")] ++ optionalText "request_id" requestId

/-- The failure of `SqlExecutionGhostQueryPolicy.completeQueueWaitTimeout`. -/
def queueWaitTimeout (requestId : Option String)
    (queueSize maxQueueSize activeWorkers maxWorkers timeoutSeconds : Int)
    (workerStarted : Bool) : QueueFailure where
  message := "SQL request timed out waiting in queue"
  context :=
    queueContext "queue_wait_timeout" requestId queueSize maxQueueSize activeWorkers maxWorkers
      (some busyMessage) ++
    [("timeout", .bool true), ("timeout_stage", .text "queue"),
      ("timeout_seconds", .int timeoutSeconds), ("worker_started", .bool workerStarted)] ++
    (if workerStarted then [("ghost_query_risk", .bool true)] else [])

theorem saysNotStarted_queueWaitTimeout (requestId : Option String)
    (queueSize maxQueueSize activeWorkers maxWorkers timeoutSeconds : Int)
    (workerStarted : Bool) :
    (queueWaitTimeout requestId queueSize maxQueueSize activeWorkers maxWorkers timeoutSeconds
      workerStarted).saysNotStarted = !workerStarted := by
  cases requestId <;> cases workerStarted <;> rfl

theorem saysNotStarted_unexpectedTaskError (requestId : Option String) :
    (unexpectedTaskError requestId).saysNotStarted = false := by
  cases requestId <;> rfl

end QueueFailure


/-! ## Requests -/

/-- What a future of the queue is completed with: a failure the queue makes
itself, or the answer of the task. -/
inductive Outcome (R : Type) where
  | queue (failure : QueueFailure)
  | task (result : R)
  deriving DecidableEq, Repr

/-- Where `_runSubmittedRequest` stands for a caller: before the start signal,
between the start signal and the result, or returned. -/
inductive Caller where
  | waiting
  | awaitingResult
  | done
  deriving DecidableEq, Repr

/-- The arguments of `submit` and of `submitWithReleasableWorker`, with the
answer of the maintenance gate. -/
structure Submission where
  kind : SqlExecutionKind := .query
  slotWeight : Int := 1
  requestId : Option String := none
  cooperativeCancellationToken : Option Nat := none
  releasable : Bool := false
  allowsInternalWork : Bool := false
  deriving DecidableEq, Repr

/-- `SqlExecutionQueuedRequest`.  `startedAt` tells whether the field of that name
is set, which is when the worker slot is taken, and `startedCompleter` whether the
completer is completed.

The last fields record what the run has seen of the request: whether its task is
under way, how often the task was invoked and the slot given back, where its
caller stands, and what the caller's future was completed with. -/
structure QueuedRequest (R : Type) where
  kind : SqlExecutionKind
  slotWeight : Int
  requestId : Option String
  cooperativeCancellationToken : Option Nat
  releasable : Bool
  hasStarted : Bool := false
  isCancelled : Bool := false
  workerSlotReleased : Bool := false
  startedAt : Bool := false
  startedCompleter : Bool := false
  completer : Option (Outcome R) := none
  running : Bool := false
  invocations : Nat := 0
  releases : Nat := 0
  caller : Caller := .waiting
  delivered : List (Outcome R) := []
  deriving DecidableEq, Repr

namespace QueuedRequest

variable {R : Type}

def ofSubmission (sub : Submission) : QueuedRequest R where
  kind := sub.kind
  slotWeight := sub.slotWeight
  requestId := sub.requestId
  cooperativeCancellationToken := sub.cooperativeCancellationToken
  releasable := sub.releasable

def completeFailure (r : QueuedRequest R) (failure : QueueFailure) : QueuedRequest R :=
  if r.completer.isNone then { r with completer := some (.queue failure) } else r

/-- The caller returns. -/
def deliver (r : QueuedRequest R) (outcome : Outcome R) : QueuedRequest R :=
  { r with caller := .done, delivered := r.delivered ++ [outcome] }

/-- The request has taken its worker slot and has not given it back. -/
def holdsSlot (r : QueuedRequest R) : Bool :=
  r.startedAt && !r.workerSlotReleased

end QueuedRequest

/-! ## States -/

/-- The state of the queue.  `signals` are the requests whose listener is about
to be told of a cancellation. -/
structure ExecutionQueue (R : Type) where
  requests : List (QueuedRequest R) := []
  lanes : Lanes Nat := fun _ => []
  queuedCount : Int := 0
  lastServedLaneIndex : Int := -1
  capacity : LaneCapacity := {}
  disposed : Bool := false
  maintenanceOperation : Option String := none
  cancelledTokens : List Nat := []
  signals : List Nat := []
  loops : Nat := 0

namespace ExecutionQueue

variable {R : Type} (cfg : QueueConfig)

/-- Replace request `i`. -/
def put (s : ExecutionQueue R) (i : Nat) (r : QueuedRequest R) : ExecutionQueue R :=
  { s with requests := s.requests.set i r }

/-- Enter `_processQueue`. -/
def processQueue (s : ExecutionQueue R) : ExecutionQueue R :=
  { s with loops := s.loops + 1 }

/-- `isCancelled` of the token of a request. -/
def tokenCancelled (s : ExecutionQueue R) : Option Nat → Bool
  | some token => decide (token ∈ s.cancelledTokens)
  | none => false

/-- Whether the caller of a request listens to `token`. -/
def listens (s : ExecutionQueue R) (token : Nat) (i : Nat) : Bool :=
  match s.requests[i]? with
  | some r => r.cooperativeCancellationToken = some token && r.caller = .waiting
  | none => false

/-- `CancellationToken.cancel`.  The stream of the token is asynchronous, so its
listeners are told later. -/
def cancelToken (s : ExecutionQueue R) (token : Nat) : ExecutionQueue R :=
  if token ∈ s.cancelledTokens then s
  else
    { s with
      cancelledTokens := token :: s.cancelledTokens
      signals := s.signals ++ (List.range s.requests.length).filter (s.listens token) }

/-- `cooperativeCancellationToken?.cancel()`. -/
def cancelOptionalToken (s : ExecutionQueue R) : Option Nat → ExecutionQueue R
  | some token => s.cancelToken token
  | none => s

/-! ## Lanes -/

/-- `SqlExecutionLaneRegistry.enqueue`. -/
def enqueue (s : ExecutionQueue R) (r : QueuedRequest R) : ExecutionQueue R :=
  { s with
    requests := s.requests ++ [r]
    lanes := fun k => if k = r.kind then s.lanes k ++ [s.requests.length] else s.lanes k
    queuedCount := s.queuedCount + 1 }

/-- The lanes without the first `i` of lane `kind`. -/
def lanesWithout (s : ExecutionQueue R) (kind : SqlExecutionKind) (i : Nat) : Lanes Nat :=
  fun k => if k = kind then (s.lanes k).erase i else s.lanes k

/-- `SqlExecutionLaneRegistry.remove`. -/
def remove (s : ExecutionQueue R) (kind : SqlExecutionKind) (i : Nat) :
    Option (ExecutionQueue R) :=
  if i ∈ s.lanes kind then
    some { s with lanes := s.lanesWithout kind i, queuedCount := s.queuedCount - 1 }
  else none

/-- `takeNextEligible` and `takeNextQueued`, by what they take for eligible. -/
def takeNext (s : ExecutionQueue R) (isEligible : Nat → Bool) :
    Option (Nat × ExecutionQueue R) :=
  match SqlQueueLaneScheduler.takeNext isEligible ⟨s.lanes, s.lastServedLaneIndex⟩ with
  | (none, _) => none
  | (some i, taken) =>
    some (i,
      { s with
        lanes := taken.queues
        lastServedLaneIndex := taken.lastServedLaneIndex
        queuedCount := s.queuedCount - 1 })

/-- `canStart` of a request number. -/
def canStart (s : ExecutionQueue R) (i : Nat) : Bool :=
  match s.requests[i]? with
  | some r => s.capacity.canStart cfg r.kind r.slotWeight
  | none => false

/-! ## Workers -/

/-- `_releaseWorkerSlot` of request `i`, whose fields are now `r`. -/
def releaseWorkerSlot (s : ExecutionQueue R) (i : Nat) (r : QueuedRequest R) :
    ExecutionQueue R :=
  if r.workerSlotReleased then s.put i r
  else
    processQueue
      { s.put i { r with workerSlotReleased := true, releases := r.releases + 1 } with
        capacity := s.capacity.onWorkerReleased cfg r.kind r.slotWeight }

/-- `_executeTask` up to the point where it waits for the task. -/
def executeTask (s : ExecutionQueue R) (i : Nat) (r : QueuedRequest R) : ExecutionQueue R :=
  if r.isCancelled || s.tokenCancelled r.cooperativeCancellationToken then
    s.releaseWorkerSlot cfg i
      ({ r with startedCompleter := true }.completeFailure .cancelledBeforeStart)
  else
    s.put i
      { r with
        hasStarted := true
        startedCompleter := true
        running := true
        invocations := r.invocations + 1 }

/-- What a round of `_processQueue` does with the request it took. -/
def startTaken (s : ExecutionQueue R) (i : Nat) (r : QueuedRequest R) : ExecutionQueue R :=
  if r.isCancelled || r.completer.isSome then s
  else
    executeTask cfg
      { s with capacity := s.capacity.onWorkerStarted r.kind r.slotWeight } i
      { r with startedAt := true }

/-- One round of one loop of `_processQueue` that is under way. -/
def round (s : ExecutionQueue R) : Option (ExecutionQueue R) :=
  match s.loops with
  | 0 => none
  | loops + 1 =>
    if s.capacity.hasAvailableWorkerSlot cfg && decide (0 < s.queuedCount) then
      match s.takeNext (s.canStart cfg) with
      | none => some { s with loops := loops }
      | some (i, s') =>
        match s'.requests[i]? with
        | some r => some (s'.startTaken cfg i r)
        | none => none
    else some { s with loops := loops }

/-- `_executeTask` after the task answered. -/
def finishTask (s : ExecutionQueue R) (i : Nat) (r : QueuedRequest R) (result : R) :
    ExecutionQueue R :=
  s.releaseWorkerSlot cfg i
    { r with
      running := false
      completer :=
        if r.completer.isNone && !r.isCancelled then some (.task result) else r.completer }

/-- `_executeTask` after the task threw. -/
def failTask (s : ExecutionQueue R) (i : Nat) (r : QueuedRequest R) : ExecutionQueue R :=
  s.releaseWorkerSlot cfg i
    ({ r with running := false }.completeFailure (.unexpectedTaskError r.requestId))

/-! ## Events -/

def admitSubmission (s : ExecutionQueue R) (sub : Submission) : Option QueueFailure :=
  if s.maintenanceOperation.isSome && !sub.allowsInternalWork then some .maintenance
  else if s.disposed then
    some (.queueDisposed "SQL execution queue is disposed" sub.requestId)
  else if cfg.maxQueueSize ≤ s.queuedCount then
    some (.queueFull sub.requestId s.queuedCount cfg.maxQueueSize s.capacity.activeWorkers
      cfg.maxConcurrentWorkers)
  else none

/-- A submission that is answered at once. -/
def reject (s : ExecutionQueue R) (sub : Submission) (failure : QueueFailure) :
    ExecutionQueue R :=
  { s with
    requests := s.requests ++ [(QueuedRequest.ofSubmission sub).deliver (.queue failure)] }

/-- `submit` and `submitWithReleasableWorker`, up to the point where the caller
waits for the start signal. -/
def submit (s : ExecutionQueue R) (sub : Submission) : ExecutionQueue R :=
  match s.admitSubmission cfg sub with
  | some failure => s.reject sub failure
  | none =>
    if sub.slotWeight < 1 ||
        (sub.kind = .batch && decide (cfg.maxConcurrentBatchWorkers < sub.slotWeight)) then
      s.reject sub .invalidSlotWeight
    else if s.tokenCancelled sub.cooperativeCancellationToken then
      s.reject sub .cancelledBeforeStart
    else (s.enqueue (QueuedRequest.ofSubmission sub)).processQueue

/-- `completeQueueWaitTimeout`, which is what the caller of request `i` runs when
its timer fires before it has seen the start signal. -/
def completeQueueWaitTimeout (s : ExecutionQueue R) (i : Nat) (r : QueuedRequest R)
    (timeoutSeconds : Int) : ExecutionQueue R :=
  let s₁ := s.cancelOptionalToken r.cooperativeCancellationToken
  let s₂ := if r.hasStarted then s₁ else (s₁.remove r.kind i).getD s₁
  s₂.put i
    ({ r with isCancelled := true }.deliver
      (.queue
        (.queueWaitTimeout r.requestId s₂.queuedCount cfg.maxQueueSize
          s₂.capacity.activeWorkers cfg.maxConcurrentWorkers timeoutSeconds r.hasStarted)))

def cancelWaitingRequest (s : ExecutionQueue R) (i : Nat) (r : QueuedRequest R) :
    ExecutionQueue R :=
  if r.hasStarted || r.completer.isSome then s
  else
    match s.remove r.kind i with
    | none => s
    | some s' =>
      (s'.put i
        ({ r with isCancelled := true, startedCompleter := true }.completeFailure
          .cancelledBeforeStart)).processQueue

def completeWithDisposalFailure (s : ExecutionQueue R) (i : Nat) : ExecutionQueue R :=
  match s.requests[i]? with
  | none => s
  | some r =>
    if r.completer.isSome then s
    else
      s.put i
        ({ r with startedCompleter := r.startedCompleter || !r.hasStarted }.completeFailure
          (.queueDisposed "SQL execution queue disposed before request could be processed"
            r.requestId))

/-- The loop of `dispose`, whose rounds each take one request off `queuedCount`. -/
def disposeLoop : Nat → ExecutionQueue R → ExecutionQueue R
  | 0, s => s
  | fuel + 1, s =>
    if 0 < s.queuedCount then
      match s.takeNext (fun _ => true) with
      | none => s
      | some (i, s') => disposeLoop fuel (s'.completeWithDisposalFailure i)
    else s

def dispose (s : ExecutionQueue R) : ExecutionQueue R :=
  disposeLoop s.queuedCount.toNat { s with disposed := true }

/-- `pauseAdmissionForMaintenance`, which throws when the maintenance belongs to
another operation. -/
def pauseAdmissionForMaintenance (s : ExecutionQueue R) (operationId : String) :
    ExecutionQueue R :=
  if s.maintenanceOperation.isSome && s.maintenanceOperation ≠ some operationId then s
  else { s with maintenanceOperation := some operationId }

def resumeAdmissionAfterMaintenance (s : ExecutionQueue R) (operationId : String) :
    ExecutionQueue R :=
  if s.maintenanceOperation = some operationId then { s with maintenanceOperation := none }
  else s

end ExecutionQueue

/-! ## The machine -/

/-- The events, with the number of the request or of the token they are about. -/
inductive Event (R : Type) where
  | submit (sub : Submission)
  | round
  | queueWaitTimeout (i : Nat) (timeoutSeconds : Int)
  | cancelToken (token : Nat)
  | resetToken (token : Nat)
  | deliverCancellation (i : Nat)
  | releaseWorker (i : Nat)
  | finishTask (i : Nat) (result : R)
  | failTask (i : Nat)
  | observeStart (i : Nat)
  | returnResult (i : Nat)
  | pauseAdmission (operationId : String)
  | resumeAdmission (operationId : String)
  | dispose

namespace ExecutionQueue

variable {R : Type} (cfg : QueueConfig)

/-- An event about request `i` that is enabled only when `p` holds of it. -/
def onRequest (s : ExecutionQueue R) (i : Nat) (p : QueuedRequest R → Bool)
    (act : QueuedRequest R → ExecutionQueue R) : Option (ExecutionQueue R) :=
  match s.requests[i]? with
  | some r => if p r then some (act r) else none
  | none => none

def step (s : ExecutionQueue R) : Event R → Option (ExecutionQueue R)
  | .submit sub => some (s.submit cfg sub)
  | .round => s.round cfg
  | .queueWaitTimeout i timeoutSeconds =>
    s.onRequest i (·.caller = .waiting) fun r =>
      s.completeQueueWaitTimeout cfg i r timeoutSeconds
  | .cancelToken token => some (s.cancelToken token)
  | .resetToken token =>
    some { s with cancelledTokens := s.cancelledTokens.filter (· ≠ token) }
  | .deliverCancellation i =>
    s.onRequest i (fun _ => i ∈ s.signals) fun r =>
      cancelWaitingRequest { s with signals := s.signals.erase i } i r
  | .releaseWorker i =>
    s.onRequest i (fun r => r.releasable && r.hasStarted) fun r => s.releaseWorkerSlot cfg i r
  | .finishTask i result => s.onRequest i (·.running) fun r => s.finishTask cfg i r result
  | .failTask i => s.onRequest i (·.running) fun r => s.failTask cfg i r
  | .observeStart i =>
    s.onRequest i (fun r => r.caller = .waiting && r.startedCompleter) fun r =>
      s.put i { r with caller := .awaitingResult }
  | .returnResult i =>
    match s.requests[i]? with
    | some r =>
      match r.completer with
      | some outcome =>
        if r.caller = .awaitingResult then some (s.put i (r.deliver outcome)) else none
      | none => none
    | none => none
  | .pauseAdmission operationId => some (s.pauseAdmissionForMaintenance operationId)
  | .resumeAdmission operationId => some (s.resumeAdmissionAfterMaintenance operationId)
  | .dispose => some s.dispose

/-- The queue as a machine that starts empty. -/
def machine (R : Type) (cfg : QueueConfig) : Machine (ExecutionQueue R) (Event R) where
  start s := s = {}
  step s := s.step cfg

end ExecutionQueue

end PlugAgente.Queue
