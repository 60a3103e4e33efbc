import PlugAgente.Execution.SaveExecution

/-!
# A persisted run

What `_startExecution`, `_runPersistedExecution`, `_finalizeTerminalExecution` and
`_observeQueueCompletion` do with one execution, one after the other: the saves, the attempts of
its runner, and the save that the observer of the queue makes when the queue has failed.

Everything that is asked of others is an input (`ExecutionRun`): how each save ends, what the
guard, the secrets, the command policy and the runner answer, what the clock says, and whether a
hook throws.  A failure is known by its code.  What is thrown in a task becomes a failure of the
queue.  The definition that the runner is given is left out: its outcome is an input.
-/

namespace PlugAgente.Execution

/-! ## Failures and statuses -/

namespace AgentActionFailureCode

def executionCancelled : String := "ACTION_CANCELLED"
def executionKilled : String := "ACTION_KILLED"
def executionTimedOut : String := "ACTION_TIMEOUT"
def interruptedOnBootstrap : String := "ACTION_INTERRUPTED_ON_BOOTSTRAP"
def queueCancelled : String := "ACTION_QUEUE_CANCELLED"
def queueDisposed : String := "ACTION_QUEUE_DISPOSED"
def queueIgnored : String := "ACTION_QUEUE_IGNORED"

end AgentActionFailureCode

open AgentActionFailureCode

def statusForFailure (code : String) : AgentActionExecutionStatus :=
  if code = executionCancelled ∨ code = queueCancelled ∨ code = queueDisposed then .cancelled
  else if code = executionKilled then .killed
  else if code = executionTimedOut then .timedOut
  else if code = queueIgnored then .skipped
  else if code = interruptedOnBootstrap then .interrupted
  else .failed

def queuedFailureStatus (code : String) : AgentActionExecutionStatus :=
  if code = queueCancelled then .cancelled
  else if code = queueDisposed then .cancelled
  else if code = queueIgnored then .skipped
  else .failed

theorem statusForFailure_ne_succeeded (code : String) : statusForFailure code ≠ .succeeded := by
  unfold statusForFailure
  split_ifs <;> simp

theorem queuedFailureStatus_cases (code : String) :
    queuedFailureStatus code = .failed ∨ queuedFailureStatus code = .cancelled ∨
      queuedFailureStatus code = .skipped := by
  unfold queuedFailureStatus
  split_ifs <;> simp

/-! ## Policies -/

inductive AgentActionType
  | commandLine
  | executable
  | script
  | jar
  | email
  | comObject
  | developer
  deriving DecidableEq, Repr

def AgentActionType.supportsProcessTermination : AgentActionType → Bool
  | commandLine | executable | script | jar | developer => true
  | email | comObject => false

inductive AgentActionRequestSource
  | localUi
  | scheduler
  | remoteHub
  | appLifecycle
  deriving DecidableEq, Repr

/-- `AgentActionRetryPolicy`; the delay between attempts is left out. -/
structure AgentActionRetryPolicy where
  maxAttempts : Int := 1
  allowRemote : Bool := false
  deriving DecidableEq, Repr

namespace AgentActionRetryPolicy

def effectiveMaxAttempts (policy : AgentActionRetryPolicy) (hasIoSession : Bool)
    (source : AgentActionRequestSource) (runElevated : Bool) : Nat :=
  let configured := if policy.maxAttempts < 1 then 1 else policy.maxAttempts.toNat
  if hasIoSession then 1
  else if configured ≤ 1 then 1
  else if runElevated then 1
  else if source = .remoteHub && !policy.allowRemote then 1
  else configured

def isRetriableStatus : AgentActionExecutionStatus → Bool
  | .failed | .timedOut => true
  | _ => false

theorem effectiveMaxAttempts_pos (policy : AgentActionRetryPolicy) (hasIoSession : Bool)
    (source : AgentActionRequestSource) (runElevated : Bool) :
    1 ≤ policy.effectiveMaxAttempts hasIoSession source runElevated := by
  unfold effectiveMaxAttempts
  dsimp only
  split_ifs <;> omega

end AgentActionRetryPolicy

/-! ## Inputs -/

/-- How a save ends.  What goes wrong after the commit makes a failure of a save that is
stored. -/
inductive SaveOutcome
  | saved
  | refused (code : String)
  | savedButFailed (code : String)
  deriving DecidableEq, Repr

namespace SaveOutcome

def persists : SaveOutcome → Bool
  | saved | savedButFailed _ => true
  | refused _ => false

/-- The code of the failure that the save returns. -/
def failure : SaveOutcome → Option String
  | saved => none
  | refused code | savedButFailed code => some code

end SaveOutcome

/-- What the runner answers: the result of a process, a failure, or something thrown. -/
inductive RunnerOutcome
  | output (status : AgentActionExecutionStatus)
  | failure (code : String)
  | threw (code : String)
  deriving DecidableEq, Repr

/-- The status of the process result, if there is one. -/
def RunnerOutcome.result : RunnerOutcome → Option AgentActionExecutionStatus
  | output status => some status
  | failure _ | threw _ => none

/-- What one attempt finds.  `guard` and `runningSave` are asked before a repeated attempt, and
`startsAt` and `endsAt` are the clock before and after it. -/
structure AttemptInputs where
  guard : Option String := none
  runningSave : SaveOutcome := .saved
  secrets : Option String := none
  startsAt : Int := 0
  safety : Option String := none
  outcome : RunnerOutcome
  endsAt : Int := 0
  deriving DecidableEq, Repr

/-- An execution, with everything that others answer. -/
structure ExecutionRun where
  type : AgentActionType := .commandLine
  retry : AgentActionRetryPolicy := {}
  source : AgentActionRequestSource := .localUi
  hasIoSession : Bool := false
  runElevated : Bool := false
  /-- What `nextStopAt` gives for the start of the execution. -/
  stopAt : Option Int := none
  queuedSave : SaveOutcome := .saved
  enqueuedHook : Option String := none
  /-- The code with which the queue refuses the task, if it does. -/
  queueRejection : Option String := none
  initialGuard : Option String := none
  runningSave : SaveOutcome := .saved
  startedHook : Option String := none
  attempt : Nat → AttemptInputs
  terminalSave : SaveOutcome := .saved
  finishedHook : Option String := none
  notifyHook : Option String := none
  rejectedSave : SaveOutcome := .saved

/-! ## The run -/

inductive ExecutionEvent
  | persisted (status : AgentActionExecutionStatus)
  | attempted (result : Option AgentActionExecutionStatus)
  deriving DecidableEq, Repr

/-- The events of a part of the run, and what it returns or the code of its failure. -/
structure Recorded (α : Type) where
  events : List ExecutionEvent := []
  result : Except String α

namespace Recorded

variable {α β : Type}

def ret (a : α) : Recorded α where
  result := .ok a

def fail (code : String) : Recorded α where
  result := .error code

def bind (r : Recorded α) (f : α → Recorded β) : Recorded β :=
  match r.result with
  | .ok a => ⟨r.events ++ (f a).events, (f a).result⟩
  | .error code => ⟨r.events, .error code⟩

/-- A check that fails with a code, or goes on. -/
def check (failure : Option String) : Recorded Unit :=
  match failure with
  | some code => fail code
  | none => ret ()

/-- `_saveExecution` of a status. -/
def save (outcome : SaveOutcome) (status : AgentActionExecutionStatus) : Recorded Unit where
  events := if outcome.persists then [.persisted status] else []
  result :=
    match outcome.failure with
    | some code => .error code
    | none => .ok ()

end Recorded

namespace ExecutionRun

variable (run : ExecutionRun)

def maxAttempts : Nat :=
  run.retry.effectiveMaxAttempts run.hasIoSession run.source run.runElevated

/-- The scheduled stop is reached at the time. -/
def stopReached (time : Int) : Bool :=
  run.stopAt.any fun stop => stop ≤ time

/-- What a repeated attempt begins with: the guard, and the status `running` again. -/
def prepareRetry (attempt : Nat) : Recorded Unit :=
  if 1 < attempt then
    (Recorded.check (run.attempt attempt).guard).bind fun _ =>
      Recorded.save (run.attempt attempt).runningSave .running
  else
    Recorded.ret ()

/-- The secrets, the scheduled stop and the command policy: whether the runner is to be called. -/
def preflight (attempt : Nat) : Recorded Bool :=
  (Recorded.check (run.attempt attempt).secrets).bind fun _ =>
    if run.stopReached (run.attempt attempt).startsAt then Recorded.ret false
    else (Recorded.check (run.attempt attempt).safety).bind fun _ => Recorded.ret true

/-- The body of the loop up to the runner. -/
def beforeRunner (attempt : Nat) : Recorded Bool :=
  (run.prepareRetry attempt).bind fun _ => run.preflight attempt

/-- The status of the execution after an attempt that has answered. -/
def statusOf : RunnerOutcome → AgentActionExecutionStatus
  | .output status => status
  | .failure code | .threw code => statusForFailure code

/-- The loop ends after an attempt, whatever attempts are left. -/
def endsLoop (attempt : Nat) : Bool :=
  let status := statusOf (run.attempt attempt).outcome
  status = .succeeded || run.stopReached (run.attempt attempt).endsAt ||
    (status = .timedOut && !run.type.supportsProcessTermination) ||
    !AgentActionRetryPolicy.isRetriableStatus status

def callRunner (attempt : Nat) : Recorded AgentActionExecutionStatus where
  events := [.attempted (run.attempt attempt).outcome.result]
  result :=
    match (run.attempt attempt).outcome with
    | .threw code => .error code
    | outcome => .ok (statusOf outcome)

/-- The loop: the status of `terminalExecution` when it is left. -/
def attemptLoop : Nat → Nat → Recorded AgentActionExecutionStatus
  | 0, _ => Recorded.ret .running
  | left + 1, attempt =>
    (run.beforeRunner attempt).bind fun runs =>
      if runs then
        (run.callRunner attempt).bind fun status =>
          if run.endsLoop attempt || left = 0 then Recorded.ret status
          else attemptLoop left (attempt + 1)
      else
        Recorded.ret .timedOut

def finalizeTerminalExecution (status : AgentActionExecutionStatus) :
    Recorded AgentActionExecutionStatus :=
  (Recorded.save run.terminalSave status).bind fun _ =>
    (Recorded.check run.finishedHook).bind fun _ =>
      (Recorded.check run.notifyHook).bind fun _ => Recorded.ret status

def runPersistedExecution : Recorded AgentActionExecutionStatus :=
  (Recorded.check run.initialGuard).bind fun _ =>
    (Recorded.save run.runningSave .running).bind fun _ =>
      (Recorded.check run.startedHook).bind fun _ =>
        (run.attemptLoop run.maxAttempts 1).bind run.finalizeTerminalExecution

/-- `ActionExecutionQueue.enqueue`: the result of the task, or a refusal. -/
def enqueue : Recorded AgentActionExecutionStatus :=
  match run.queueRejection with
  | some code => Recorded.fail code
  | none => run.runPersistedExecution

def observeQueueCompletion (queued : Recorded AgentActionExecutionStatus) :
    Recorded AgentActionExecutionStatus :=
  match queued.result with
  | .ok _ => queued
  | .error code =>
    let rejected :=
      (Recorded.save run.rejectedSave (queuedFailureStatus code)).bind fun _ => Recorded.fail code
    ⟨queued.events ++ rejected.events, rejected.result⟩

/-- `_startExecution`, and what follows it. -/
def execute : Recorded AgentActionExecutionStatus :=
  (Recorded.save run.queuedSave .queued).bind fun _ =>
    (Recorded.check run.enqueuedHook).bind fun _ => run.observeQueueCompletion run.enqueue

end ExecutionRun

end PlugAgente.Execution
