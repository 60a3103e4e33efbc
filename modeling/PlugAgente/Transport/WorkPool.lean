import PlugAgente.Machine.Ledger
import PlugAgente.Machine.Transition

/-!
# The transport work pool

`TransportWorkPool` as a machine.  `submit` queues a job, `_schedule` gives the queued jobs to idle
workers, and a failure anywhere aborts the whole pool.  `_startWorkers` is a coroutine: `starting`
says at which of its awaits it stands.

Jobs are named by their positions in `jobs`, and workers by their positions in `made`, which keeps
the workers that `_workers` has dropped.  A job carries whether its `send` throws, so that failing
sends happen inside `_schedule`.  `runs` is the history of `_run`.  The counters are left out.
-/

namespace PlugAgente.Transport

/-- With what a completer completes. -/
inductive WorkOutcome where
  | value
  /-- The result of the worker has another type than the job. -/
  | wrongType
  | workerError
  | invalidResult
  /-- The error that has aborted the pool. -/
  | fatal
  | cancelled
  deriving DecidableEq, Repr

/-- A job, with the history of its completer. -/
structure WorkJob where
  sendThrows : Bool
  completions : List WorkOutcome := []
  deriving DecidableEq, Repr

/-- `completer.isCompleted`. -/
def WorkJob.isCompleted (job : WorkJob) : Bool := !job.completions.isEmpty

/-- `_TransportWorker`. -/
structure PoolWorker where
  active : Option Nat := none
  sendPort : Bool := false
  /-- `ready` is complete. -/
  ready : Bool := false
  readyPortOpen : Bool := true
  closed : Bool := false
  deriving DecidableEq, Repr

def PoolWorker.close (worker : PoolWorker) : PoolWorker :=
  if worker.closed then worker
  else
    { worker with
      closed := true
      ready := true
      active := none
      readyPortOpen := false
      sendPort := false }

/-- Where `_startWorkers` stands. -/
inductive StartPhase where
  | notStarted
  /-- It awaits `_spawnWorker`. -/
  | spawning (index worker : Nat)
  /-- It awaits `worker.ready`. -/
  | awaitingReady (index worker : Nat)
  /-- It awaits the end of the subscription to `readyPort`. -/
  | cancelling (index worker : Nat)
  /-- It has thrown, and `catchError` is due. -/
  | threw
  /-- It has returned, and `whenComplete` is due. -/
  | returned
  | over
  deriving DecidableEq, Repr

structure TransportWorkPool where
  workerCount : Nat
  made : List PoolWorker := []
  workers : List Nat := []
  queue : List Nat := []
  starting : StartPhase := .notStarted
  disposed : Bool := false
  fatalError : Bool := false
  jobs : List WorkJob := []
  runs : List (Nat × Nat) := []
  deriving DecidableEq, Repr

/-- What arrives at the reply port of a job. -/
inductive WorkReply where
  /-- Not a list of a flag and a result. -/
  | malformed
  | success (rightType : Bool)
  | failure
  deriving DecidableEq, Repr

inductive WorkPoolEvent where
  | submit (sendThrows : Bool)
  | dispose
  /-- `_spawnWorker` returns an isolate, or throws. -/
  | spawned
  | spawnFailed
  /-- A message arrives at the ready port of a worker. -/
  | handshake (worker : Nat) (isSendPort : Bool)
  /-- `_startWorkers` goes on behind `await worker.ready.future`. -/
  | readyAwaited
  /-- `_startWorkers` goes on behind the end of the subscription. -/
  | subscriptionCancelled
  /-- `catchError(_failPool)`. -/
  | startCaught
  /-- `whenComplete(_schedule)`. -/
  | startCompleted
  /-- A message arrives at the reply port of a job on a worker. -/
  | reply (job worker : Nat) (message : WorkReply)
  /-- A message arrives at the error port or the exit port of a worker. -/
  | workerFailed (worker : Nat)
  deriving DecidableEq, Repr

namespace TransportWorkPool

/-- The pool that a constructor call makes. -/
def make (workerCount : Nat) : TransportWorkPool where
  workerCount := max 1 (min workerCount 4)

/-- It takes no more jobs. -/
def stopped (p : TransportWorkPool) : Bool := p.disposed || p.fatalError

/-- `completer.complete` or `completer.completeError`. -/
def complete (p : TransportWorkPool) (i : Nat) (outcome : WorkOutcome) : TransportWorkPool :=
  { p with jobs := p.jobs.modify i fun job =>
      { job with completions := job.completions ++ [outcome] } }

/-- The local function `fail` of `_abortAll`. -/
def fail (outcome : WorkOutcome) (p : TransportWorkPool) (i : Nat) : TransportWorkPool :=
  if (p.jobs[i]?.map (·.isCompleted)).getD true then p else p.complete i outcome

/-- A round of the loop of `_abortAll` over the workers. -/
def abortWorker (outcome : WorkOutcome) (p : TransportWorkPool) (w : Nat) : TransportWorkPool :=
  let p := match p.made[w]?.bind (·.active) with
    | some i => p.fail outcome i
    | none => p
  { p with made := p.made.modify w (·.close) }

def abortAll (p : TransportWorkPool) (outcome : WorkOutcome) : TransportWorkPool :=
  let p := p.queue.foldl (fail outcome) p
  let p := { p with queue := [] }
  let p := p.workers.foldl (abortWorker outcome) p
  { p with workers := [] }

def failPool (p : TransportWorkPool) : TransportWorkPool :=
  if p.disposed || p.fatalError then p else abortAll { p with fatalError := true } .fatal

/-- The job becomes the active one of a worker, and its reply port is listened to. -/
def activate (p : TransportWorkPool) (w i : Nat) : TransportWorkPool :=
  { p with
    made := p.made.modify w fun worker => { worker with active := some i }
    runs := p.runs ++ [(i, w)] }

/-- `_run`. -/
def runJob (p : TransportWorkPool) (w i : Nat) : TransportWorkPool :=
  if ((p.activate w i).jobs[i]?.map (·.sendThrows)).getD false then (p.activate w i).failPool
  else p.activate w i

/-- The loop of `_schedule`.  A send that throws clears the list under the iterator, which then
throws. -/
def scheduleLoop : List Nat → TransportWorkPool → TransportWorkPool
  | [], p => p
  | w :: ws, p =>
    match p.made[w]?, p.queue with
    | some worker, i :: queue =>
      if worker.active.isSome || !worker.sendPort || worker.closed then scheduleLoop ws p
      else
        let p := runJob { p with queue := queue } w i
        if p.workers.isEmpty then p else scheduleLoop ws p
    | _, _ => scheduleLoop ws p

def schedule (p : TransportWorkPool) : TransportWorkPool :=
  if p.disposed || p.fatalError || p.workers.isEmpty then p else scheduleLoop p.workers p

/-- The head of the loop of `_startWorkers`. -/
def startFrom (p : TransportWorkPool) (index : Nat) : TransportWorkPool :=
  if index < p.workerCount && !(p.disposed || p.fatalError) then
    { p with
      made := p.made ++ [{}]
      workers := p.workers ++ [p.made.length]
      starting := .spawning index p.made.length }
  else { p with starting := .returned }

def ensureStarted (p : TransportWorkPool) : TransportWorkPool :=
  match p.starting with
  | .notStarted => (p.startFrom 0).schedule
  | _ => p.schedule

/-- `submit`; a pool that has stopped answers with a future that has failed. -/
def submit (p : TransportWorkPool) (sendThrows : Bool) : TransportWorkPool :=
  if p.disposed then p
  else if p.fatalError then p
  else
    ensureStarted { p with
      jobs := p.jobs ++ [{ sendThrows := sendThrows }]
      queue := p.queue ++ [p.jobs.length] }

/-- `_dispose`, up to its `await`; a second `dispose` finds `_shutdown`. -/
def dispose (p : TransportWorkPool) : TransportWorkPool :=
  if p.disposed then p else abortAll { p with disposed := true } .cancelled

/-- A worker has been closed. -/
def isClosed (p : TransportWorkPool) (w : Nat) : Bool :=
  (p.made[w]?.map (·.closed)).getD true

/-- `_startWorkers` behind `await _spawnWorker`. -/
def spawned (p : TransportWorkPool) : Option TransportWorkPool :=
  match p.starting with
  | .spawning index w =>
    if p.isClosed w then some { p with starting := .returned }
    else some { p with starting := .awaitingReady index w }
  | _ => none

/-- `_startWorkers` behind `await worker.ready.future`. -/
def readyAwaited (p : TransportWorkPool) : Option TransportWorkPool :=
  match p.starting with
  | .awaitingReady index w =>
    if (p.made[w]?.map (·.ready)).getD false then
      some { p with
        made := p.made.modify w fun worker => { worker with readyPortOpen := false }
        starting := .cancelling index w }
    else none
  | _ => none

/-- `_startWorkers` behind the end of the subscription. -/
def subscriptionCancelled (p : TransportWorkPool) : Option TransportWorkPool :=
  match p.starting with
  | .cancelling index w =>
    if p.isClosed w then some { p with starting := .returned } else some (p.startFrom (index + 1))
  | _ => none

/-- The listener of the ready port. -/
def handshake (p : TransportWorkPool) (w : Nat) (isSendPort : Bool) : Option TransportWorkPool :=
  match p.made[w]? with
  | none => none
  | some worker =>
    if !worker.readyPortOpen then none
    else if !isSendPort then some p.failPool
    else some { p with
      made := p.made.modify w fun worker => { worker with sendPort := true, ready := true } }

/-- The listener of a reply port.  A message of a port that has been closed changes nothing. -/
def reply (p : TransportWorkPool) (i w : Nat) (message : WorkReply) : Option TransportWorkPool :=
  if (i, w) ∈ p.runs then
    match p.made[w]?, p.jobs[i]? with
    | some worker, some job =>
      if worker.closed || worker.active != some i || job.isCompleted then some p
      else
        let p := { p with made := p.made.modify w fun worker => { worker with active := none } }
        match message with
        | .malformed => some (p.complete i .invalidResult).failPool
        | .success true => some (p.complete i .value).schedule
        | .success false => some (p.complete i .wrongType).failPool
        | .failure => some (p.complete i .workerError).schedule
    | _, _ => none
  else none

end TransportWorkPool

open TransportWorkPool

def workPool : Machine TransportWorkPool WorkPoolEvent where
  start p := ∃ workerCount, p = .make workerCount
  step p
    | .submit sendThrows => some (p.submit sendThrows)
    | .dispose => some p.dispose
    | .spawned => p.spawned
    | .spawnFailed =>
      match p.starting with
      | .spawning _ _ => some { p with starting := .threw }
      | _ => none
    | .handshake w isSendPort => p.handshake w isSendPort
    | .readyAwaited => p.readyAwaited
    | .subscriptionCancelled => p.subscriptionCancelled
    | .startCaught =>
      if p.starting = .threw then some { p.failPool with starting := .returned } else none
    | .startCompleted =>
      if p.starting = .returned then some { p.schedule with starting := .over } else none
    | .reply i w message => p.reply i w message
    | .workerFailed w => if w < p.made.length then some p.failPool else none

end PlugAgente.Transport
