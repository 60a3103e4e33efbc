import PlugAgente.Batch.Commands
import PlugAgente.Machine.Ledger
import PlugAgente.Machine.Transition

/-!
# Read-only batches in parallel

`OdbcReadOnlyBatchParallelExecutor.execute` as a machine: the warm-up that acquires one
connection for each worker, the workers that take the commands from a shared cursor, and the
releases at the end.  Code that awaits goes on in a later turn of the event loop, so each await is
an event of its own, the token may be cancelled between any two events, and the time is an input
of every event that reads the clock.

The semaphore is shared with other batches: whether a wait for a permit ends with one is an input.
A command is named by its position in the batch, and so is the permit that its worker takes for it.

The metrics, the log and the history of infrastructure failures are left out.
-/

namespace PlugAgente.Batch

variable {ρ : Type}

/-- `ConnectionConstants.readOnlyBatchParallelismForPoolSize`. -/
def readOnlyBatchParallelismForPoolSize (poolSize : Int) : Nat :=
  let effectivePoolSize := if 0 < poolSize then poolSize else 1
  if effectivePoolSize ≤ 1 then 1 else (effectivePoolSize - 1).toNat

/-- The arguments of `execute`. -/
structure ReadOnlyBatch where
  commands : List SqlCommand
  maxParallelReadOnlyBatchItems : Int
  maxRows : Int := 50000
  poolSize : Int
  deadline : Option Int := none
  allowNativeCompatibleAcquire : Bool := false
  deriving Repr, DecidableEq

namespace ReadOnlyBatch

/-- `maxParallelReadOnlyBatchItems.clamp(1, safePoolParallelism)`. -/
def parallelism (batch : ReadOnlyBatch) : Nat :=
  min (max 1 batch.maxParallelReadOnlyBatchItems.toNat)
    (readOnlyBatchParallelismForPoolSize batch.poolSize)

/-- `OdbcExecutionDeadline.remainingFromDeadline` is there and not above zero. -/
def expired (batch : ReadOnlyBatch) (now : Int) : Bool :=
  batch.deadline.any fun deadline => deadline ≤ now

end ReadOnlyBatch

/-- A `QueryExecutionFailure`. -/
def queryExecutionFailure (message : String) : BatchError :=
  { errorClass := .failure, message := message }

def cancelledBeforeWarmup : BatchError :=
  queryExecutionFailure "Batch SQL execution was cancelled before worker pool warm-up"

def warmupTimeoutFailure : BatchError :=
  { queryExecutionFailure "Batch SQL execution timeout before worker pool warm-up" with
    isTimeout := true }

def workerConnectionFailure : BatchError :=
  { errorClass := .connectionFailure
    message := "Failed to acquire pooled worker connection for read-only batch" }

/-! ## The state -/

/-- What the connection manager does with an acquire. -/
inductive AcquireAnswer where
  | connection (connectionId : Nat)
  | failure (e : BatchError)
  | throws
  deriving Repr, DecidableEq

/-- Where the acquire of a worker stands. -/
inductive AcquireStage where
  /-- The token and the clock are still to be read. -/
  | created
  | requested
  | acquired (connectionId : Nat)
  | failed (e : BatchError)
  deriving Repr, DecidableEq

namespace AcquireStage

/-- The future of the acquire is complete. -/
def isSettled : AcquireStage → Bool
  | acquired _ => true
  | failed _ => true
  | _ => false

def connection? : AcquireStage → Option Nat
  | acquired connectionId => some connectionId
  | _ => none

def failure? : AcquireStage → Option BatchError
  | failed e => some e
  | _ => none

end AcquireStage

/-- Where a worker stands. -/
inductive WorkerStage where
  /-- At the top of its loop. -/
  | ready
  | awaitingPermit (index : Nat)
  /-- It has its permit, and the code after the wait is due. -/
  | admitted (index : Nat)
  | executing (index : Nat)
  | returned
  /-- An exception has left it. -/
  | thrown
  deriving Repr, DecidableEq

namespace WorkerStage

def isDone : WorkerStage → Bool
  | returned => true
  | thrown => true
  | _ => false

/-- The command whose permit the worker waits for. -/
def awaiting? : WorkerStage → Option Nat
  | awaitingPermit index => some index
  | _ => none

/-- The command whose permit the worker holds. -/
def holding? : WorkerStage → Option Nat
  | admitted index => some index
  | executing index => some index
  | _ => none

/-- The command that the worker is at. -/
def taken? : WorkerStage → Option Nat
  | awaitingPermit index => some index
  | admitted index => some index
  | executing index => some index
  | _ => none

/-- The command that the runner works on for the worker. -/
def executing? : WorkerStage → Option Nat
  | executing index => some index
  | _ => none

/-- The command that the worker has taken and not handed to the runner. -/
def unexecuted? : WorkerStage → Option Nat
  | awaitingPermit index => some index
  | admitted index => some index
  | _ => none

end WorkerStage

/-- How an execution goes on after its connections are released. -/
inductive Ending where
  | fails (e : BatchError)
  | lists
  | throws
  deriving Repr, DecidableEq

/-- Where an execution stands. -/
inductive ReadOnlyPhase (ρ : Type) where
  | entered
  | warmingUp
  | working
  | releasing (remaining : List Nat) (ending : Ending)
  | failed (e : BatchError)
  | returned (results : List (SqlCommandResult ρ))
  | thrown
  deriving Repr, DecidableEq

/-- The execution is over. -/
def ReadOnlyPhase.isExit : ReadOnlyPhase ρ → Bool
  | failed _ => true
  | returned _ => true
  | thrown => true
  | _ => false

/-- A call of the runner. -/
structure ExecutedCommand where
  index : Nat
  command : SqlCommand
  connectionId : Option Nat
  deriving Repr, DecidableEq

/-- What `runWithTimeout` comes to. -/
inductive RunnerAnswer (ρ : Type) where
  | response (response : QueryResponse ρ)
  | failure (e : BatchError)
  | timedOut
  | throws
  deriving Repr, DecidableEq

/-- What a command has come to: it was not handed to the runner, or the runner has answered. -/
inductive ItemOutcome (ρ : Type) where
  | expired
  | noPermit
  | cancelled
  | expiredWithPermit
  | unprepared
  | answered (answer : RunnerAnswer ρ)
  deriving Repr, DecidableEq

/-- The variables of `execute`, with the history of what it has done: the calls of the runner, what
the commands have come to, the permits it got, those it gave back, and the connections it has
released. -/
structure ReadOnlyRun (ρ : Type) where
  phase : ReadOnlyPhase ρ := .entered
  cancelled : Bool := false
  acquires : List AcquireStage := []
  workers : List WorkerStage := []
  cursor : Nat := 0
  results : List (Option (SqlCommandResult ρ)) := []
  connectionsToDiscard : List Nat := []
  executed : List ExecutedCommand := []
  outcomes : List (Nat × ItemOutcome ρ) := []
  permits : List Nat := []
  permitReleases : List Nat := []
  released : List Nat := []
  deriving Repr, DecidableEq

/-- How a wait for a permit ends. -/
inductive PermitAnswer where
  | granted
  | timedOut
  | throws
  deriving Repr, DecidableEq

/-- How the preparation of a command ends. -/
inductive PrepareAnswer where
  | prepared
  | timedOut
  | throws
  deriving Repr, DecidableEq

inductive ReadOnlyEvent (ρ : Type) where
  | cancel
  | enter (now : Int)
  | requestConnection (worker : Nat) (now : Int)
  | answerAcquire (worker : Nat) (answer : AcquireAnswer)
  | endWarmup
  | takeCommand (worker : Nat) (now : Int)
  | answerPermit (worker : Nat) (answer : PermitAnswer)
  | runCommand (worker : Nat) (now : Int) (answer : PrepareAnswer)
  | answerRunner (worker : Nat) (answer : RunnerAnswer ρ)
  | endWork
  | releaseConnection
  | leave
  deriving Repr, DecidableEq

namespace ReadOnlyRun

/-! ## Warm-up -/

/-- The checks before the warm-up, which starts all acquires together. -/
def enter (batch : ReadOnlyBatch) (now : Int) (s : ReadOnlyRun ρ) : Option (ReadOnlyRun ρ) :=
  match s.phase with
  | .entered =>
    if s.cancelled then
      some { s with phase := .failed cancelledBeforeWarmup }
    else if batch.expired now then
      some { s with phase := .failed warmupTimeoutFailure }
    else
      some { s with phase := .warmingUp, acquires := List.replicate batch.parallelism .created }
  | _ => none

/-- The checks of `_acquireWorkerConnection`. -/
def requestConnection (batch : ReadOnlyBatch) (worker : Nat) (now : Int) (s : ReadOnlyRun ρ) :
    Option (ReadOnlyRun ρ) :=
  match s.phase, s.acquires[worker]? with
  | .warmingUp, some .created =>
    let stage : AcquireStage :=
      if s.cancelled then .failed cancelledBeforeWarmup
      else if batch.expired now then .failed warmupTimeoutFailure
      else .requested
    some { s with acquires := s.acquires.set worker stage }
  | _, _ => none

/-- The rest of `_acquireWorkerConnection`. -/
def answerAcquire (worker : Nat) (answer : AcquireAnswer) (s : ReadOnlyRun ρ) :
    Option (ReadOnlyRun ρ) :=
  match s.phase, s.acquires[worker]? with
  | .warmingUp, some .requested =>
    let stage : AcquireStage :=
      match answer with
      | .connection connectionId => .acquired connectionId
      | .failure e => .failed e
      | .throws => .failed workerConnectionFailure
    some { s with acquires := s.acquires.set worker stage }
  | _, _ => none

def workerConnections (s : ReadOnlyRun ρ) : List Nat :=
  s.acquires.filterMap AcquireStage.connection?

def warmupFailure (s : ReadOnlyRun ρ) : Option BatchError :=
  (s.acquires.filterMap AcquireStage.failure?).head?

/-- The failure of a warm-up: what is not a `Failure` is answered as a `ConnectionFailure`. -/
def warmupError (s : ReadOnlyRun ρ) : BatchError :=
  let error := s.warmupFailure.getD cancelledBeforeWarmup
  if error.isFailure then error else workerConnectionFailure

/-- `Future.wait` over the acquires is complete. -/
def endWarmup (batch : ReadOnlyBatch) (s : ReadOnlyRun ρ) : Option (ReadOnlyRun ρ) :=
  match s.phase with
  | .warmingUp =>
    if s.acquires.all AcquireStage.isSettled then
      if s.warmupFailure.isSome || s.cancelled then
        some { s with phase := .releasing s.workerConnections (.fails s.warmupError) }
      else
        some { s with
          phase := .working
          workers := List.replicate batch.parallelism .ready
          results := List.replicate batch.commands.length none }
    else none
  | _ => none

/-! ## Workers -/

/-- A worker goes on. -/
def setWorker (worker : Nat) (stage : WorkerStage) (s : ReadOnlyRun ρ) : ReadOnlyRun ρ :=
  { s with workers := s.workers.set worker stage }

/-- `results[index] = result`. -/
def setResult (index : Nat) (result : SqlCommandResult ρ) (s : ReadOnlyRun ρ) : ReadOnlyRun ρ :=
  { s with results := s.results.set index (some result) }

/-- `results[index] = SqlCommandResult.failure(…)`. -/
def fail (index : Nat) (error : String) (s : ReadOnlyRun ρ) : ReadOnlyRun ρ :=
  s.setResult index (.failure index error)

/-- A command has come to something. -/
def record (index : Nat) (outcome : ItemOutcome ρ) (s : ReadOnlyRun ρ) : ReadOnlyRun ρ :=
  { s with outcomes := s.outcomes ++ [(index, outcome)] }

/-- `_parallelSemaphore.release()`. -/
def releasePermit (index : Nat) (s : ReadOnlyRun ρ) : ReadOnlyRun ρ :=
  { s with permitReleases := s.permitReleases ++ [index] }

/-- The top of a worker's loop, up to the wait for a permit. -/
def takeCommand (batch : ReadOnlyBatch) (worker : Nat) (now : Int) (s : ReadOnlyRun ρ) :
    Option (ReadOnlyRun ρ) :=
  match s.phase, s.workers[worker]? with
  | .working, some .ready =>
    if s.cancelled then
      some (s.setWorker worker .returned)
    else
      let index := s.cursor
      let taken := { s with cursor := s.cursor + 1 }
      if batch.commands.length ≤ index then
        some (taken.setWorker worker .returned)
      else if batch.expired now then
        some ((taken.record index .expired).fail index "Batch SQL execution timeout")
      else
        some (taken.setWorker worker (.awaitingPermit index))
  | _, _ => none

/-- The wait for a permit is over. -/
def answerPermit (worker : Nat) (answer : PermitAnswer) (s : ReadOnlyRun ρ) :
    Option (ReadOnlyRun ρ) :=
  match s.phase, s.workers[worker]? with
  | .working, some (.awaitingPermit index) =>
    match answer with
    | .granted =>
      some ({ s with permits := s.permits ++ [index] }.setWorker worker (.admitted index))
    | .timedOut =>
      some (((s.record index .noPermit).fail index
        "Batch SQL execution timeout while waiting for read-only parallel capacity").setWorker
          worker .ready)
    | .throws => some (s.setWorker worker .thrown)
  | _, _ => none

/-- From the permit to the call of the runner. -/
def runCommand (batch : ReadOnlyBatch) (worker : Nat) (now : Int) (answer : PrepareAnswer)
    (s : ReadOnlyRun ρ) : Option (ReadOnlyRun ρ) :=
  match s.phase, s.workers[worker]? with
  | .working, some (.admitted index) =>
    if s.cancelled then
      some ((((s.record index .cancelled).fail index
        "Batch SQL execution was cancelled").releasePermit index).setWorker worker .returned)
    else if batch.expired now then
      some ((((s.record index .expiredWithPermit).fail index
        "Batch SQL execution timeout before read-only item execution").releasePermit
          index).setWorker worker .ready)
    else
      match answer, batch.commands[index]? with
      | .prepared, some command =>
        let call : ExecutedCommand :=
          { index := index, command := command, connectionId := s.workerConnections[worker]? }
        some ({ s with executed := s.executed ++ [call] }.setWorker worker (.executing index))
      | .timedOut, _ =>
        some ((((s.record index .unprepared).fail index
          "Batch SQL execution timeout").releasePermit index).setWorker worker .ready)
      | _, _ => some ((s.releasePermit index).setWorker worker .thrown)
  | _, _ => none

/-- `markConnectionForDiscard`, for an id that the driver does not know any more. -/
def discardInvalid (batch : ReadOnlyBatch) (worker : Nat) (e : BatchError) (s : ReadOnlyRun ρ) :
    ReadOnlyRun ρ :=
  if batch.allowNativeCompatibleAcquire && e.isInvalidConnectionId then
    { s with connectionsToDiscard := s.connectionsToDiscard ++ s.workerConnections[worker]?.toList }
  else s

/-- The runner comes back. -/
def answerRunner (batch : ReadOnlyBatch) (worker : Nat) (answer : RunnerAnswer ρ)
    (s : ReadOnlyRun ρ) : Option (ReadOnlyRun ρ) :=
  match s.phase, s.workers[worker]? with
  | .working, some (.executing index) =>
    let s := s.record index (.answered answer)
    match answer with
    | .response response =>
      some (((s.setResult index (.ofResponse index batch.maxRows response)).releasePermit
        index).setWorker worker .ready)
    | .failure e =>
      some ((((s.discardInvalid batch worker e).fail index e.message).releasePermit
        index).setWorker worker .ready)
    | .timedOut =>
      some (((s.fail index "Batch SQL execution timeout").releasePermit index).setWorker
        worker .ready)
    | .throws => some ((s.releasePermit index).setWorker worker .thrown)
  | _, _ => none

/-! ## The end -/

/-- `Future.wait` over the workers is complete, and the `finally` begins. -/
def endWork (s : ReadOnlyRun ρ) : Option (ReadOnlyRun ρ) :=
  match s.phase with
  | .working =>
    if s.workers.all WorkerStage.isDone then
      let ending : Ending := if s.workers.contains .thrown then .throws else .lists
      some { s with phase := .releasing s.workerConnections ending }
    else none
  | _ => none

/-- One turn of `_releaseWorkerConnections`. -/
def releaseConnection (s : ReadOnlyRun ρ) : Option (ReadOnlyRun ρ) :=
  match s.phase with
  | .releasing (connectionId :: remaining) ending =>
    some { s with
      phase := .releasing remaining ending
      released := s.released ++ [connectionId] }
  | _ => none

/-- The result of an item that no worker has left one for. -/
def missingResult (cancelled : Bool) (index : Nat) : SqlCommandResult ρ :=
  .failure index
    (if cancelled then "Batch SQL execution was cancelled"
      else "Read-only batch item did not complete")

/-- The list that is returned. -/
def listed (s : ReadOnlyRun ρ) : List (SqlCommandResult ρ) :=
  s.results.mapIdx fun index result => result.getD (missingResult s.cancelled index)

/-- All connections are released, and the execution ends. -/
def leave (s : ReadOnlyRun ρ) : Option (ReadOnlyRun ρ) :=
  match s.phase with
  | .releasing [] ending =>
    match ending with
    | .fails e => some { s with phase := .failed e }
    | .lists => some { s with phase := .returned s.listed }
    | .throws => some { s with phase := .thrown }
  | _ => none

def step (batch : ReadOnlyBatch) (s : ReadOnlyRun ρ) :
    ReadOnlyEvent ρ → Option (ReadOnlyRun ρ)
  | .cancel => some { s with cancelled := true }
  | .enter now => s.enter batch now
  | .requestConnection worker now => s.requestConnection batch worker now
  | .answerAcquire worker answer => s.answerAcquire worker answer
  | .endWarmup => s.endWarmup batch
  | .takeCommand worker now => s.takeCommand batch worker now
  | .answerPermit worker answer => s.answerPermit worker answer
  | .runCommand worker now answer => s.runCommand batch worker now answer
  | .answerRunner worker answer => s.answerRunner batch worker answer
  | .endWork => s.endWork
  | .releaseConnection => s.releaseConnection
  | .leave => s.leave

/-- An execution of a batch, with a token that may have been cancelled before. -/
def machine (batch : ReadOnlyBatch) : Machine (ReadOnlyRun ρ) (ReadOnlyEvent ρ) where
  start := fun s => ∃ cancelled, s = { cancelled := cancelled }
  step := step batch

end ReadOnlyRun

end PlugAgente.Batch
