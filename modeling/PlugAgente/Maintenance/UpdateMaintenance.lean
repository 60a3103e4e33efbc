import PlugAgente.Dart.Text
import PlugAgente.Machine.Rows
import PlugAgente.Machine.Transition

/-!
# The maintenance before an update

`UpdateMaintenanceCoordinator` as a machine.  `_prepare` awaits four callbacks; what runs between
two awaits is one event, and its input `Callbacks` says what the callbacks answer in it: each of
them may throw.  Calls of `prepare` and `cancel` may come between any two events.

The future of the exit policies is kept for each operation.  It completes in an event of its own,
also after the wait for it has timed out.

`history` is what the coordinator has done.  The two events of an exit policy, that its future
completes and that its outcome is unknown, are written when they happen.
-/

namespace PlugAgente.Maintenance

open Dart

/-- A failure: its text, the reason of its context, and whether its `outcome_unknown` is true. -/
structure MaintenanceFailure where
  message : String
  reason : Option String := none
  outcomeUnknown : Bool := false
  deriving Repr, DecidableEq

def maintenanceInProgress : MaintenanceFailure :=
  { message := "Outra atualização está em preparação."
    reason := some "maintenance_in_progress" }

def maintenanceAttemptLimit : MaintenanceFailure :=
  { message := "Reinicie o agente antes de preparar outra atualização."
    reason := some "maintenance_attempt_limit" }

def exitPoliciesPending : MaintenanceFailure :=
  { message := "As ações de encerramento ainda não foram confirmadas."
    reason := some "exit_policies_pending"
    outcomeUnknown := true }

def maintenanceUnconfirmed (outcomeUnknown : Bool) : MaintenanceFailure :=
  { message := "Não foi possível preparar a manutenção com segurança."
    reason := some "maintenance_unconfirmed"
    outcomeUnknown := outcomeUnknown }

/-- What a preparation comes to.  A call of `restoreAdmission` in the `catch` that throws makes the
future complete with an error. -/
inductive MaintenanceResult where
  | ready
  | deferred
  | failed (e : MaintenanceFailure)
  | thrown
  deriving Repr, DecidableEq

/-- What a callback that was awaited comes to. -/
inductive CallbackAnswer where
  | success
  | failure (e : MaintenanceFailure)
  | throws
  deriving Repr, DecidableEq

/-- The callback may have done its work or not. -/
def CallbackAnswer.isUnknown : CallbackAnswer → Bool
  | success => false
  | failure e => e.outcomeUnknown
  | throws => true

/-- An entry of `_exitPolicies`: nothing while its future is pending. -/
structure ExitPolicy where
  operationId : Text
  outcome : Option CallbackAnswer := none
  deriving Repr, DecidableEq

/-- Where a preparation stands. -/
inductive PreparationStage where
  | starting
  | waiting (deadline : Int)
  | awaitingPolicies (deadline : Int)
  | awaitingSnapshot (deadline : Int)
  | awaitingClose
  | completed (result : MaintenanceResult)
  deriving Repr, DecidableEq

/-- `_preparation` and `_operationId`. -/
structure Preparation where
  operationId : Text
  stage : PreparationStage
  deriving Repr, DecidableEq

/-- What the coordinator has done. -/
inductive MaintenanceHistory where
  | frozen
  | restored
  | policiesApplied (operationId : Text)
  | policiesEnded (operationId : Text)
  | policiesUnknown (operationId : Text)
  | closing
  | closed
  | reported (result : MaintenanceResult)
  deriving Repr, DecidableEq

structure UpdateMaintenanceCoordinator where
  hasBeforeClose : Bool := true
  exitPolicies : List ExitPolicy := []
  preparation : Option Preparation := none
  retryAfter : Option Int := none
  isSealed : Bool := false
  cancelRequested : Bool := false
  isFrozen : Bool := false
  effectsStarted : Bool := false
  history : List MaintenanceHistory := []
  deriving Repr, DecidableEq

/-- What the callbacks answer in one event: `false` and nothing stand for a throw.  `clock` is the
answer of each reading of the clock, in their order. -/
structure Callbacks where
  freezeAdmission : Bool := true
  restoreAdmission : Bool := true
  isSafelyIdle : Option Bool := some true
  clock : Nat → Option Int
  /-- The awaited callback that the event starts has returned its future. -/
  starts : Bool := true

/-- `const Duration(seconds: 60)`, in microseconds. -/
def preparationTime : Int := 60000000

/-- `const Duration(minutes: 15)`. -/
def retryDelay : Int := 900000000

/-- The bound of the ledger of exit policies. -/
def maxExitPolicies : Nat := 64

namespace UpdateMaintenanceCoordinator

/-! ## Parts of `_prepare` -/

def record (entry : MaintenanceHistory) (c : UpdateMaintenanceCoordinator) :
    UpdateMaintenanceCoordinator :=
  { c with history := c.history ++ [entry] }

/-- `_preparation` goes on to a stage. -/
def setStage (stage : PreparationStage) (c : UpdateMaintenanceCoordinator) :
    UpdateMaintenanceCoordinator :=
  { c with preparation := c.preparation.map fun p => { p with stage := stage } }

/-- The future of the preparation completes. -/
def complete (result : MaintenanceResult) (c : UpdateMaintenanceCoordinator) :
    UpdateMaintenanceCoordinator :=
  (c.setStage (.completed result)).record (.reported result)

def sealMaintenance (c : UpdateMaintenanceCoordinator) : UpdateMaintenanceCoordinator :=
  { c with isSealed := true }

def restore (c : UpdateMaintenanceCoordinator) : UpdateMaintenanceCoordinator :=
  if c.isFrozen then record .restored { c with isFrozen := false } else c

/-- `_restore` throws. -/
def restoreThrows (r : Callbacks) (c : UpdateMaintenanceCoordinator) : Bool :=
  c.isFrozen && !r.restoreAdmission

/-- The `catch` of `_prepare`. -/
def caught (r : Callbacks) (c : UpdateMaintenanceCoordinator) : UpdateMaintenanceCoordinator :=
  let c := if c.effectsStarted then c.sealMaintenance else c
  if c.isSealed then
    c.complete (.failed (maintenanceUnconfirmed true))
  else if c.restoreThrows r then
    c.restore.complete .thrown
  else
    c.restore.complete (.failed (maintenanceUnconfirmed false))

/-- `_restore()` before a `return`. -/
def restoreThen (result : MaintenanceResult) (r : Callbacks) (c : UpdateMaintenanceCoordinator) :
    UpdateMaintenanceCoordinator :=
  if c.restoreThrows r then c.restore.caught r else c.restore.complete result

/-- `retryAfter` is set, and the preparation is deferred.  `k` readings of the clock came before. -/
def defer (r : Callbacks) (k : Nat) (c : UpdateMaintenanceCoordinator) :
    UpdateMaintenanceCoordinator :=
  match r.clock k with
  | none => c.caught r
  | some now =>
    let c := { c with retryAfter := some (now + retryDelay) }
    c.restoreThen .deferred r

/-- The entry of an operation in `_exitPolicies`. -/
def policy? (operationId : Text) (c : UpdateMaintenanceCoordinator) : Option ExitPolicy :=
  c.exitPolicies.find? fun e => e.operationId = operationId

/-- The exit policies are applied unless they were, and their future is awaited. -/
def awaitPolicies (operationId : Text) (deadline : Int) (r : Callbacks)
    (c : UpdateMaintenanceCoordinator) : UpdateMaintenanceCoordinator :=
  let c := { c with effectsStarted := true }
  if (c.policy? operationId).isSome then
    c.setStage (.awaitingPolicies deadline)
  else
    let applied := c.record (.policiesApplied operationId)
    if r.starts then
      setStage (.awaitingPolicies deadline) { applied with
        exitPolicies := applied.exitPolicies ++ [{ operationId := operationId }] }
    else
      (applied.record (.policiesUnknown operationId)).caught r

/-- From the idle loop to the wait for the exit policies. -/
def startPolicies (operationId : Text) (deadline : Int) (r : Callbacks) (k : Nat)
    (c : UpdateMaintenanceCoordinator) : UpdateMaintenanceCoordinator :=
  if c.cancelRequested then
    c.restoreThen .deferred r
  else if (c.policy? operationId).isNone ∧ maxExitPolicies ≤ c.exitPolicies.length then
    c.restoreThen (.failed maintenanceAttemptLimit) r
  else
    match r.clock k with
    | none => c.caught r
    | some now =>
      if deadline - now ≤ 0 then c.defer r (k + 1) else c.awaitPolicies operationId deadline r

/-- One test of the idle loop. -/
def idleLoop (operationId : Text) (deadline : Int) (r : Callbacks) (k : Nat)
    (c : UpdateMaintenanceCoordinator) : UpdateMaintenanceCoordinator :=
  match r.isSafelyIdle with
  | none => c.caught r
  | some true => c.startPolicies operationId deadline r k
  | some false =>
    if c.cancelRequested then
      c.defer r k
    else
      match r.clock k with
      | none => c.caught r
      | some now =>
        if now < deadline then c.setStage (.waiting deadline) else c.defer r (k + 1)

/-- The test after the exit policies and the one after `beforeClose`. -/
def recheck (deadline : Int) (r : Callbacks) (c : UpdateMaintenanceCoordinator)
    (next : Nat → UpdateMaintenanceCoordinator) : UpdateMaintenanceCoordinator :=
  if c.cancelRequested then
    c.defer r 0
  else
    match r.isSafelyIdle with
    | none => c.caught r
    | some false => c.defer r 0
    | some true =>
      match r.clock 0 with
      | none => c.caught r
      | some now => if now < deadline then next 1 else c.defer r 1

/-- A callback is started, with a timeout for which the clock is read. -/
def startAwait (stage : PreparationStage) (r : Callbacks) (k : Nat)
    (c : UpdateMaintenanceCoordinator) : UpdateMaintenanceCoordinator :=
  if r.starts && (r.clock k).isSome then c.setStage stage else c.caught r

/-- `beforeClose?.call()`. -/
def startSnapshot (deadline : Int) (r : Callbacks) (k : Nat) (c : UpdateMaintenanceCoordinator) :
    UpdateMaintenanceCoordinator :=
  if c.hasBeforeClose then c.startAwait (.awaitingSnapshot deadline) r k
  else c.setStage (.awaitingSnapshot deadline)

/-- `_sealed` is set, and `flushAndCloseLocalData` is called. -/
def startClose (r : Callbacks) (k : Nat) (c : UpdateMaintenanceCoordinator) :
    UpdateMaintenanceCoordinator :=
  (c.sealMaintenance.record .closing).startAwait .awaitingClose r k

/-! ## Events -/

/-- `_prepare` up to its first await. -/
def begin (operationId : Text) (r : Callbacks) (k : Nat) (c : UpdateMaintenanceCoordinator) :
    UpdateMaintenanceCoordinator :=
  let c := { c with
    preparation := some { operationId := operationId, stage := .starting }
    cancelRequested := false
    effectsStarted := false }
  if r.freezeAdmission then
    let c := record .frozen { c with isFrozen := true }
    match r.clock k with
    | none => c.caught r
    | some now => c.idleLoop operationId (now + preparationTime) r (k + 1)
  else
    c.caught r

/-- `prepare`.  A call with the operation that is in preparation is given its future, and a clock
that throws leaves the call with the error. -/
def prepare (operationId : Text) (r : Callbacks) (c : UpdateMaintenanceCoordinator) :
    UpdateMaintenanceCoordinator :=
  match c.preparation with
  | some p =>
    if p.operationId = operationId then c else c.record (.reported (.failed maintenanceInProgress))
  | none =>
    match c.retryAfter with
    | none => c.begin operationId r 0
    | some nextAttempt =>
      match r.clock 0 with
      | none => c
      | some now =>
        if now < nextAttempt then c.record (.reported .deferred) else c.begin operationId r 1

def cancel (c : UpdateMaintenanceCoordinator) : UpdateMaintenanceCoordinator :=
  if c.isSealed then c
  else
    let c := { c with cancelRequested := true }
    if c.preparation.isNone then c.restore else c

/-- The wait of the idle loop is over; `false` says that it throws. -/
def waited (returns : Bool) (r : Callbacks) (c : UpdateMaintenanceCoordinator) :
    Option UpdateMaintenanceCoordinator :=
  match c.preparation with
  | some { operationId, stage := .waiting deadline } =>
    some (if returns then c.idleLoop operationId deadline r 0 else c.caught r)
  | _ => none

/-- The future of the exit policies of an operation completes. -/
def completePolicies (operationId : Text) (answer : CallbackAnswer)
    (c : UpdateMaintenanceCoordinator) : Option UpdateMaintenanceCoordinator :=
  match c.policy? operationId with
  | some { outcome := none, .. } =>
    let c := { c with
      exitPolicies := Rows.write (fun e => e.operationId = operationId)
        (fun e => { e with outcome := some answer }) c.exitPolicies }
    let ended := c.record (.policiesEnded operationId)
    some (if answer.isUnknown then ended.record (.policiesUnknown operationId) else ended)
  | _ => none

/-- The wait for the exit policies ends with what their future has come to. -/
def policiesAnswered (r : Callbacks) (c : UpdateMaintenanceCoordinator) :
    Option UpdateMaintenanceCoordinator :=
  match c.preparation with
  | some { operationId, stage := .awaitingPolicies deadline } =>
    match (c.policy? operationId).bind ExitPolicy.outcome with
    | none => none
    | some .throws => some (c.caught r)
    | some (.failure e) =>
      if e.outcomeUnknown then
        some (c.sealMaintenance.complete (.failed e))
      else
        match r.isSafelyIdle with
        | none => some (c.caught r)
        | some false => some (c.sealMaintenance.complete (.failed e))
        | some true => some (c.restoreThen (.failed e) r)
    | some .success => some (c.recheck deadline r fun k => c.startSnapshot deadline r k)
  | _ => none

/-- The wait for the exit policies times out. -/
def policiesTimedOut (c : UpdateMaintenanceCoordinator) : Option UpdateMaintenanceCoordinator :=
  match c.preparation with
  | some { operationId, stage := .awaitingPolicies _ } =>
    some ((c.record (.policiesUnknown operationId)).sealMaintenance.complete
      (.failed exitPoliciesPending))
  | _ => none

/-- The wait for `beforeClose` ends; a timeout is a throw.  Without the callback it ends with
nothing. -/
def snapshotAnswered (answer : CallbackAnswer) (r : Callbacks)
    (c : UpdateMaintenanceCoordinator) : Option UpdateMaintenanceCoordinator :=
  match c.preparation with
  | some { stage := .awaitingSnapshot deadline, .. } =>
    if c.hasBeforeClose ∨ answer = .success then
      match answer with
      | .throws => some (c.caught r)
      | .failure e =>
        some (if e.outcomeUnknown then c.sealMaintenance.complete (.failed e)
          else c.restoreThen (.failed e) r)
      | .success => some (c.recheck deadline r fun k => c.startClose r k)
    else none
  | _ => none

/-- The wait for `flushAndCloseLocalData` ends; a timeout is a throw. -/
def closeAnswered (answer : CallbackAnswer) (r : Callbacks) (c : UpdateMaintenanceCoordinator) :
    Option UpdateMaintenanceCoordinator :=
  match c.preparation with
  | some { stage := .awaitingClose, .. } =>
    match answer with
    | .throws => some (c.caught r)
    | .failure e => some (c.complete (.failed e))
    | .success => some ((c.record .closed).complete .ready)
  | _ => none

/-- The `whenComplete` of `prepare`. -/
def whenComplete (c : UpdateMaintenanceCoordinator) : Option UpdateMaintenanceCoordinator :=
  match c.preparation with
  | some { stage := .completed _, .. } =>
    some (if c.isSealed then c else { c with preparation := none })
  | _ => none

inductive Event where
  | prepare (operationId : Text) (r : Callbacks)
  | cancel
  | waited (returns : Bool) (r : Callbacks)
  | completePolicies (operationId : Text) (answer : CallbackAnswer)
  | policiesAnswered (r : Callbacks)
  | policiesTimedOut
  | snapshotAnswered (answer : CallbackAnswer) (r : Callbacks)
  | closeAnswered (answer : CallbackAnswer) (r : Callbacks)
  | whenComplete

def step (c : UpdateMaintenanceCoordinator) : Event → Option UpdateMaintenanceCoordinator
  | .prepare operationId r => some (c.prepare operationId r)
  | .cancel => some c.cancel
  | .waited returns r => c.waited returns r
  | .completePolicies operationId answer => c.completePolicies operationId answer
  | .policiesAnswered r => c.policiesAnswered r
  | .policiesTimedOut => c.policiesTimedOut
  | .snapshotAnswered answer r => c.snapshotAnswered answer r
  | .closeAnswered answer r => c.closeAnswered answer r
  | .whenComplete => c.whenComplete

/-- A new coordinator, with `beforeClose` or without. -/
def machine : Machine UpdateMaintenanceCoordinator Event where
  start := fun c => ∃ hasBeforeClose, c = { hasBeforeClose := hasBeforeClose }
  step := step

end UpdateMaintenanceCoordinator

end PlugAgente.Maintenance
