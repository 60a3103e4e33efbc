import PlugAgente.Machine.Transition
import PlugAgente.Schedule.Calculator

/-!
# The trigger scheduler

`AgentActionTriggerScheduler` as a machine.  A state holds every timer that was ever made and
every asynchronous call, with the point at which it waits.  What the repository, the lock and
the dispatch of a trigger answer is part of the event that resumes the call, so a call may be
resumed with any answer and in any order.

A reload reads the generation and the revision of a trigger when it comes to schedule it,
which may be long after it was called.  So every timer and every dispatch also keeps the
counters at the call behind it, of `syncTrigger` or of a reload; nothing reads them.

The texts of failures and the counts of a snapshot are left out.  The triggers of executions
and those of the start and the end of the app have no timers and come from other entry points.
-/

namespace PlugAgente.Schedule

/-- `AgentActionTrigger`, as the scheduler reads it. -/
structure AgentActionTrigger extends Trigger where
  isEnabled : Bool := true

/-- The counters when a call was made. -/
structure Origin where
  generation : Nat
  revisions : String → Nat

/-- A timer, with the arguments of its callback and the origin of the call that made it.  It
is active until it is cancelled or has fired. -/
structure SchedulerTimer where
  triggerId : String
  scheduledAt : DateTime
  generation : Nat
  revision : Nat
  origin : Origin
  active : Bool := true

def SchedulerTimer.cancel (timer : SchedulerTimer) : SchedulerTimer :=
  { timer with active := false }

/-- A call of `_dispatchTrigger`, with what it was made for. -/
structure Dispatch where
  triggerId : String
  scheduledAt : DateTime
  generation : Nat
  revision : Nat
  origin : Origin

/-- Where an asynchronous call waits. -/
inductive Task where
  /-- `start` waits for a release of the lock. -/
  | lockRelease
  /-- `start` waits for the lock. -/
  | lockAcquire
  /-- `reloadTemporalTriggers` waits for the triggers; the flag says that `start` has called
  it. -/
  | list (starting : Bool) (origin : Origin)
  /-- `start` waits for a reload that has failed. -/
  | failedReload (transient : Bool)
  /-- `_scheduleTemporalTrigger` waits for the repository; a reload then goes on with the
  rest. -/
  | save (triggerId : String) (nextRunAt : DateTime) (generation revision : Nat)
      (origin : Origin) (rest : List AgentActionTrigger)
  /-- A reload waits for a call of `_scheduleTemporalTrigger` that makes no timer. -/
  | next (origin : Origin) (rest : List AgentActionTrigger)
  /-- `_dispatchAndReschedule` waits for the dispatch. -/
  | dispatch (dispatch : Dispatch)
  /-- `_dispatchAndReschedule` waits for the trigger. -/
  | fresh (dispatch : Dispatch)
  | done

structure AgentActionTriggerScheduler where
  timersByTriggerId : String → Option Nat := fun _ => none
  started : Bool := false
  bootstrapDisabled : Bool := false
  scheduleGeneration : Nat := 0
  triggerRevisions : String → Nat := fun _ => 0
  /-- What `_ensureSchedulerFeatureGateAllows` answers. -/
  featureGateAllows : Bool := true
  timers : List SchedulerTimer := []
  tasks : List Task := []
  dispatches : List Dispatch := []

/-- The events.  The first argument of an answer is the call that it resumes. -/
inductive Event where
  | start
  | stop
  | reloadTemporalTriggers
  | syncTrigger (trigger : AgentActionTrigger) (now : DateTime)
  | unscheduleTrigger (triggerId : String)
  | setFeatureGate (allows : Bool)
  | expire (timer : Nat)
  | released (task : Nat)
  | acquired (task : Nat) (success : Bool)
  /-- The triggers, or a failure that is transient or not. -/
  | listed (task : Nat) (result : Except Bool (List AgentActionTrigger)) (now : DateTime)
  | reloadFailed (task : Nat)
  /-- The row was written, it has changed meanwhile, or the repository failed. -/
  | saved (task : Nat) (result : Option Bool)
  | proceed (task : Nat) (now : DateTime)
  | dispatched (task : Nat)
  | loaded (task : Nat) (result : Option AgentActionTrigger) (now : DateTime)

namespace AgentActionTriggerScheduler

variable (s : AgentActionTriggerScheduler)

def origin : Origin :=
  ⟨s.scheduleGeneration, s.triggerRevisions⟩

def isSchedulingLive (generation : Nat) : Bool :=
  s.started && !s.bootstrapDisabled && generation == s.scheduleGeneration

def isTriggerLive (id : String) (generation revision : Nat) : Bool :=
  s.isSchedulingLive generation && s.triggerRevisions id == revision

def cancelAllTimers : AgentActionTriggerScheduler :=
  { s with
    timers := s.timers.mapIdx fun i timer =>
      if s.timersByTriggerId timer.triggerId = some i then timer.cancel else timer
    timersByTriggerId := fun _ => none }

/-- `_unscheduleTrigger`. -/
def removeTimer (triggerId : String) : AgentActionTriggerScheduler :=
  match s.timersByTriggerId triggerId with
  | none => s
  | some i =>
    { s with
      timers := s.timers.modify i SchedulerTimer.cancel
      timersByTriggerId := Function.update s.timersByTriggerId triggerId none }

def unscheduleTrigger (triggerId : String) : AgentActionTriggerScheduler :=
  { s with
    triggerRevisions := Function.update s.triggerRevisions triggerId
      (s.triggerRevisions triggerId + 1) }.removeTimer triggerId

/-- `_pauseScheduling`, up to the release of the lock. -/
def pauseScheduling : AgentActionTriggerScheduler :=
  { s with
    started := false
    scheduleGeneration := s.scheduleGeneration + 1 }.cancelAllTimers

def disableAfterBootstrapFailure : AgentActionTriggerScheduler :=
  { s with bootstrapDisabled := true }.pauseScheduling

/-- The timer of a trigger is replaced by a new one. -/
def installTimer (timer : SchedulerTimer) : AgentActionTriggerScheduler :=
  let s := s.removeTimer timer.triggerId
  { s with
    timers := s.timers ++ [timer]
    timersByTriggerId :=
      Function.update s.timersByTriggerId timer.triggerId (some s.timers.length) }

variable (env : ScheduleEnv)

/-- `_scheduleTemporalTrigger`, up to its `await`. -/
def scheduleTemporalTrigger (trigger : AgentActionTrigger) (now : DateTime) (origin : Origin)
    (rest : List AgentActionTrigger) : Task :=
  if !s.started then .next origin rest
  else
    match nextRun env (effectiveTrigger trigger.toTrigger now) now with
    | .error _ => .next origin rest
    -- The repository is asked to clear the next run, and nothing comes after that.
    | .ok none => .next origin rest
    | .ok (some nextRunAt) =>
      .save trigger.id nextRunAt s.scheduleGeneration (s.triggerRevisions trigger.id) origin rest

/-- The loop of `reloadTemporalTriggers`. -/
def reloadLoop (now : DateTime) (origin : Origin) : List AgentActionTrigger → Task
  | [] => .done
  | trigger :: rest => s.scheduleTemporalTrigger env trigger now origin rest

/-- `reloadTemporalTriggers`, up to its `await`. -/
def reloadTemporalTriggers (starting : Bool) : AgentActionTriggerScheduler × Task :=
  if !s.featureGateAllows then
    (s.pauseScheduling, if starting then .failedReload true else .done)
  else if s.bootstrapDisabled then
    (s.cancelAllTimers, if starting then .failedReload false else .done)
  else if !s.started then (s, .done)
  else (s.cancelAllTimers, .list starting s.origin)

/-- `start`, up to its first `await`. -/
def start : AgentActionTriggerScheduler × Task :=
  if !s.featureGateAllows then (s.pauseScheduling, .done)
  else if s.bootstrapDisabled then (s, .done)
  else if s.started then (s, .done)
  else (s, .lockRelease)

/-- `start`, once it has the lock. -/
def startLocked : AgentActionTriggerScheduler × Task :=
  { s with started := true }.reloadTemporalTriggers true

/-- `syncTrigger`, up to its `await`. -/
def syncTrigger (trigger : AgentActionTrigger) (now : DateTime) :
    AgentActionTriggerScheduler × Task :=
  let s := s.unscheduleTrigger trigger.id
  if !s.started || !trigger.isEnabled || !trigger.isTemporalTrigger then (s, .done)
  else if !s.featureGateAllows || s.bootstrapDisabled then (s, .done)
  else (s, s.scheduleTemporalTrigger env trigger now s.origin [])

/-- `_dispatchAndReschedule`, up to its first `await`. -/
def dispatchAndReschedule (d : Dispatch) : AgentActionTriggerScheduler × Task :=
  if !s.isTriggerLive d.triggerId d.generation d.revision then (s, .done)
  else
    let s := s.removeTimer d.triggerId
    if !s.featureGateAllows then (s.pauseScheduling, .done)
    else if s.bootstrapDisabled then (s, .done)
    else ({ s with dispatches := s.dispatches ++ [d] }, .dispatch d)

def expire (i : Nat) : Option (AgentActionTriggerScheduler × Task) :=
  match s.timers[i]? with
  | some ⟨triggerId, scheduledAt, generation, revision, origin, true⟩ =>
    some ({ s with timers := s.timers.modify i SchedulerTimer.cancel }.dispatchAndReschedule
      ⟨triggerId, scheduledAt, generation, revision, origin⟩)
  | _ => none

/-- `_scheduleTemporalTrigger` after the repository has answered. -/
def saved (result : Option Bool) : Task → Option (AgentActionTriggerScheduler × Task)
  | .save triggerId nextRunAt generation revision origin rest =>
    if result = some true && s.isTriggerLive triggerId generation revision then
      some (s.installTimer ⟨triggerId, nextRunAt, generation, revision, origin, true⟩,
        .next origin rest)
    else some (s, .next origin rest)
  | _ => none

/-- `reloadTemporalTriggers` after the repository has answered. -/
def listed (result : Except Bool (List AgentActionTrigger)) (now : DateTime) :
    Task → Option (AgentActionTriggerScheduler × Task)
  | .list starting origin =>
    match result with
    | .error transient =>
      some (s.disableAfterBootstrapFailure,
        if starting then .failedReload transient else .done)
    | .ok triggers => some (s, s.reloadLoop env now origin triggers)
  | _ => none

/-- `start` after a reload has failed. -/
def reloadFailed : Task → Option (AgentActionTriggerScheduler × Task)
  | .failedReload true => some (s.pauseScheduling, .done)
  | .failedReload false => some (s.disableAfterBootstrapFailure, .done)
  | _ => none

/-- `_dispatchAndReschedule` after the dispatch. -/
def dispatched : Task → Option (AgentActionTriggerScheduler × Task)
  | .dispatch d =>
    some (s, if s.isTriggerLive d.triggerId d.generation d.revision then .fresh d else .done)
  | _ => none

/-- `_dispatchAndReschedule` after the trigger was loaded: the repository answers with the
trigger it was asked for. -/
def loaded (result : Option AgentActionTrigger) (now : DateTime) :
    Task → Option (AgentActionTriggerScheduler × Task)
  | .fresh d =>
    match result with
    | none => some (s, .done)
    | some trigger =>
      if trigger.id ≠ d.triggerId then none
      else if !s.isTriggerLive d.triggerId d.generation d.revision || !trigger.isEnabled ||
          !trigger.isTemporalTrigger then some (s, .done)
      else
        some (s, s.scheduleTemporalTrigger env
          { trigger with lastScheduledAt := some d.scheduledAt } now d.origin [])
  | _ => none

/-- `start` after the release of the lock; without a lock it goes on at once. -/
def released (hasLock : Bool) : Task → Option (AgentActionTriggerScheduler × Task)
  | .lockRelease => some (if hasLock then (s, .lockAcquire) else s.startLocked)
  | _ => none

/-- `start` after `tryAcquire`. -/
def acquired (success : Bool) : Task → Option (AgentActionTriggerScheduler × Task)
  | .lockAcquire => some (if success then s.startLocked else (s, .done))
  | _ => none

/-- A reload goes on. -/
def proceed (now : DateTime) : Task → Option (AgentActionTriggerScheduler × Task)
  | .next origin rest => some (s, s.reloadLoop env now origin rest)
  | _ => none

end AgentActionTriggerScheduler

/-- A call that has come to an `await`. -/
def spawn (r : AgentActionTriggerScheduler × Task) : AgentActionTriggerScheduler :=
  { r.1 with tasks := r.1.tasks ++ [r.2] }

/-- A call is resumed, and comes to another `await`. -/
def resume (s : AgentActionTriggerScheduler) (k : Nat)
    (go : Task → Option (AgentActionTriggerScheduler × Task)) :
    Option AgentActionTriggerScheduler :=
  match s.tasks[k]? with
  | none => none
  | some task => (go task).map fun r => { r.1 with tasks := r.1.tasks.set k r.2 }

def agentActionTriggerScheduler (env : ScheduleEnv) (hasLock : Bool) :
    Machine AgentActionTriggerScheduler Event where
  start s := s = {}
  step s
    | .start => some (spawn s.start)
    | .stop => some s.pauseScheduling
    | .reloadTemporalTriggers => some (spawn (s.reloadTemporalTriggers false))
    | .syncTrigger trigger now => some (spawn (s.syncTrigger env trigger now))
    | .unscheduleTrigger triggerId => some (s.unscheduleTrigger triggerId)
    | .setFeatureGate allows => some { s with featureGateAllows := allows }
    | .expire i => (s.expire i).map spawn
    | .released k => resume s k (s.released hasLock)
    | .acquired k success => resume s k (s.acquired success)
    | .listed k result now => resume s k (s.listed env result now)
    | .reloadFailed k => resume s k s.reloadFailed
    | .saved k result => resume s k (s.saved result)
    | .proceed k now => resume s k (s.proceed env now)
    | .dispatched k => resume s k s.dispatched
    | .loaded k result now => resume s k (s.loaded env result now)

end PlugAgente.Schedule
