import PlugAgente.Schedule.Progress
import PlugAgente.Schedule.SchedulerTimers

/-!
# Safety of the trigger scheduler

The numbers that a timer was made for were read in the turn in which its trigger was
scheduled.  For a call of `syncTrigger` that is the turn of the call.  A reload comes to a
trigger after it has waited for the list and for every trigger before, so it takes a trigger
for current that was superseded meanwhile.  `Undisturbed` are the steps that leave the
triggers alone which a reload has still to schedule; where all steps are, what a timer or a
waiting call has read are the counters of its origin.
-/

namespace PlugAgente.Schedule

/-- The events that supersede the revisions of a trigger. -/
def Event.supersedes (triggerId : String) : Event → Prop
  | .syncTrigger trigger _ => trigger.id = triggerId
  | .unscheduleTrigger id => id = triggerId
  | _ => False

namespace AgentActionTriggerScheduler

variable {s t : AgentActionTriggerScheduler} {env : ScheduleEnv} {hasLock : Bool}

theorem revision_lt_of_supersedes {event : Event} {s' : AgentActionTriggerScheduler}
    {id : String} (h : (agentActionTriggerScheduler env hasLock).step s event = some s')
    (hevent : event.supersedes id) : s.triggerRevisions id < s'.triggerRevisions id := by
  have hbump : s.triggerRevisions id < (s.unscheduleTrigger id).triggerRevisions id := by
    rw [revisions_unscheduleTrigger, Function.update_self]
    exact Nat.lt_succ_self _
  cases event with
  | syncTrigger trigger now =>
    obtain rfl : trigger.id = id := hevent
    obtain rfl := Option.some.inj h
    show _ < (s.syncTrigger env trigger now).1.triggerRevisions _
    rw [syncTrigger_fst]
    exact hbump
  | unscheduleTrigger other =>
    obtain rfl : other = id := hevent
    obtain rfl := Option.some.inj h
    exact hbump
  | _ => exact absurd hevent (by simp [Event.supersedes])

end AgentActionTriggerScheduler

/-! ## Origins -/

/-- A reload that was called at `origin` has still to schedule a trigger. -/
inductive Task.Loads : Task → Origin → String → Prop where
  | list (starting : Bool) (origin : Origin) (id : String) : Loads (.list starting origin) origin id
  | save {trigger : AgentActionTrigger} {rest : List AgentActionTrigger} (id : String)
      (nextRunAt : DateTime) (generation revision : Nat) (origin : Origin)
      (h : trigger ∈ rest) :
      Loads (.save id nextRunAt generation revision origin rest) origin trigger.id
  | next {trigger : AgentActionTrigger} {rest : List AgentActionTrigger} (origin : Origin)
      (h : trigger ∈ rest) : Loads (.next origin rest) origin trigger.id

/-- The counters that a call has read are those of its origin. -/
def Task.Stamped : Task → Prop
  | .save triggerId _ generation revision origin _ =>
    generation = origin.generation ∧ revision = origin.revisions triggerId
  | .dispatch d | .fresh d =>
    d.generation = d.origin.generation ∧ d.revision = d.origin.revisions d.triggerId
  | _ => True

def SchedulerTimer.Stamped (timer : SchedulerTimer) : Prop :=
  timer.generation = timer.origin.generation ∧
    timer.revision = timer.origin.revisions timer.triggerId

/-- The events that may set `_started`. -/
def Event.starts (hasLock : Bool) : Event → Prop
  | .released _ => hasLock = false
  | .acquired _ success => success = true
  | _ => False

/-- No trigger is superseded that a reload has still to schedule, and the scheduler is not
started while a reload of an earlier generation has triggers left. -/
def Undisturbed (hasLock : Bool) (s : AgentActionTriggerScheduler) (event : Event) : Prop :=
  ∀ task ∈ s.tasks, ∀ origin id, task.Loads origin id →
    ¬event.supersedes id ∧
      (event.starts hasLock → origin.generation = s.scheduleGeneration)

namespace AgentActionTriggerScheduler

variable {s m t : AgentActionTriggerScheduler} {env : ScheduleEnv} {hasLock : Bool}

/-- The counters of an origin are those of a state, as far as they concern a trigger. -/
def Current (s : AgentActionTriggerScheduler) (origin : Origin) (id : String) : Prop :=
  (s.started = true → origin.generation = s.scheduleGeneration) ∧
    origin.revisions id = s.triggerRevisions id

/-- What a waiting call has read, and what it has still to read, are the counters of its
origin. -/
structure Faithful (s : AgentActionTriggerScheduler) (task : Task) : Prop where
  stamped : task.Stamped
  loads : ∀ origin id, task.Loads origin id → s.Current origin id

/-- The invariant of the origins. -/
structure Sourced (s : AgentActionTriggerScheduler) : Prop where
  timers : ∀ timer ∈ s.timers, timer.Stamped
  tasks : ∀ task ∈ s.tasks, s.Faithful task

theorem Faithful.keeps {task : Task} (h : s.Faithful task)
    (hcurrent : ∀ origin id, task.Loads origin id → s.Current origin id → m.Current origin id) :
    m.Faithful task :=
  ⟨h.stamped, fun origin id hloads => hcurrent origin id hloads (h.loads origin id hloads)⟩

theorem faithful_done (s : AgentActionTriggerScheduler) : s.Faithful .done :=
  ⟨trivial, by rintro _ _ ⟨⟩⟩

theorem Sourced.keeps (h : s.Sourced) (htasks : m.tasks = s.tasks)
    (hrevisions : m.triggerRevisions = s.triggerRevisions)
    (hstarted : m.started = true → s.started = true ∧ m.scheduleGeneration = s.scheduleGeneration)
    (htimers : ∀ timer ∈ m.timers, ∃ old ∈ s.timers, timer = old ∨ timer = old.cancel) :
    m.Sourced := by
  constructor
  · intro timer htimer
    obtain ⟨old, hold, rfl | rfl⟩ := htimers timer htimer
    · exact h.timers timer hold
    · exact h.timers old hold
  · intro task htask
    refine (h.tasks task (htasks ▸ htask)).keeps ?_
    rintro origin id - ⟨hgeneration, hrevision⟩
    refine ⟨?_, by rw [hrevisions, hrevision]⟩
    intro hm
    obtain ⟨hs, hsame⟩ := hstarted hm
    rw [hsame, hgeneration hs]

theorem timers_cancelAllTimers {timer : SchedulerTimer} (h : timer ∈ s.cancelAllTimers.timers) :
    ∃ old ∈ s.timers, timer = old ∨ timer = old.cancel := by
  obtain ⟨i, hi, rfl⟩ := List.mem_mapIdx.mp h
  refine ⟨s.timers[i], List.getElem_mem hi, ?_⟩
  split
  · exact .inr rfl
  · exact .inl rfl

theorem timers_modify {i : Nat} {timer : SchedulerTimer}
    (h : timer ∈ s.timers.modify i SchedulerTimer.cancel) :
    ∃ old ∈ s.timers, timer = old ∨ timer = old.cancel := by
  obtain ⟨n, hn⟩ := List.getElem?_of_mem h
  rw [List.getElem?_modify, Option.map_eq_map, Option.map_eq_some_iff] at hn
  obtain ⟨old, hold, heq⟩ := hn
  refine ⟨old, List.mem_of_getElem? hold, ?_⟩
  split at heq
  · exact .inr heq.symm
  · exact .inl heq.symm

theorem timers_removeTimer {id : String} {timer : SchedulerTimer}
    (h : timer ∈ (s.removeTimer id).timers) :
    ∃ old ∈ s.timers, timer = old ∨ timer = old.cancel := by
  rw [removeTimer] at h
  split at h
  · exact ⟨timer, h, .inl rfl⟩
  · exact timers_modify h

theorem started_removeTimer (s : AgentActionTriggerScheduler) (id : String) :
    (s.removeTimer id).started = s.started ∧ (s.removeTimer id).tasks = s.tasks := by
  rw [removeTimer]
  split <;> exact ⟨rfl, rfl⟩

theorem Sourced.removeTimer (h : s.Sourced) (id : String) : (s.removeTimer id).Sourced := by
  obtain ⟨hstarted, htasks⟩ := s.started_removeTimer id
  obtain ⟨-, hgeneration, hrevisions, -⟩ := s.removeTimer_keeps id
  exact h.keeps htasks hrevisions (fun hm => ⟨hstarted ▸ hm, hgeneration⟩)
    fun _ => timers_removeTimer

theorem Sourced.quiet (h : s.Sourced) (hquiet : s.Quiet m) : m.Sourced := by
  induction hquiet with
  | same => exact h
  | cancelled _ ih => exact ih.keeps rfl rfl (fun hm => ⟨hm, rfl⟩) fun _ => timers_cancelAllTimers
  | paused _ ih | disabled _ ih =>
    exact ih.keeps rfl rfl (fun hm => absurd hm (by simp [pauseScheduling,
      disableAfterBootstrapFailure, cancelAllTimers])) fun _ => timers_cancelAllTimers
  | fired _ i ih => exact ih.keeps rfl rfl (fun hm => ⟨hm, rfl⟩) fun _ => timers_modify
  | removed _ id ih => exact ih.removeTimer id

/-- A trigger may be superseded that no reload has still to schedule. -/
theorem Sourced.unscheduleTrigger (h : s.Sourced) {id : String}
    (hid : ∀ task ∈ s.tasks, ∀ origin, ¬task.Loads origin id) :
    (s.unscheduleTrigger id).Sourced := by
  let bumped : AgentActionTriggerScheduler :=
    { s with
      triggerRevisions := Function.update s.triggerRevisions id (s.triggerRevisions id + 1) }
  have hbumped : bumped.Sourced := by
    refine ⟨h.timers, ?_⟩
    intro task htask
    refine (h.tasks task htask).keeps ?_
    rintro origin other hloads ⟨hgeneration, hrevision⟩
    refine ⟨hgeneration, ?_⟩
    have hother : other ≠ id := by
      rintro rfl
      exact hid task htask origin hloads
    show origin.revisions other = Function.update s.triggerRevisions id _ other
    rw [Function.update_of_ne hother, hrevision]
  exact hbumped.removeTimer id

theorem Sourced.started (h : s.Sourced)
    (hstart : ∀ task ∈ s.tasks, ∀ origin id, task.Loads origin id →
      origin.generation = s.scheduleGeneration) : { s with started := true }.Sourced := by
  refine ⟨h.timers, ?_⟩
  intro task htask
  refine (h.tasks task htask).keeps ?_
  rintro origin id hloads ⟨-, hrevision⟩
  exact ⟨fun _ => hstart task htask origin id hloads, hrevision⟩

theorem Sourced.installTimer (h : s.Sourced) {timer : SchedulerTimer} (htimer : timer.Stamped) :
    (s.installTimer timer).Sourced := by
  have hremoved := h.removeTimer timer.triggerId
  refine ⟨?_, fun task htask => (hremoved.tasks task htask).keeps fun _ _ _ hcurrent => hcurrent⟩
  intro other hother
  rcases List.mem_append.mp hother with hother | hother
  · exact hremoved.timers other hother
  · obtain rfl := List.mem_singleton.mp hother
    exact htimer

theorem Sourced.spawn {r : AgentActionTriggerScheduler × Task} (h : r.1.Sourced)
    (htask : r.1.Faithful r.2) : (spawn r).Sourced := by
  refine ⟨h.timers, ?_⟩
  intro task hmem
  rcases List.mem_append.mp hmem with hmem | hmem
  · exact (h.tasks task hmem).keeps fun _ _ _ hcurrent => hcurrent
  · obtain rfl := List.mem_singleton.mp hmem
    exact htask.keeps fun _ _ _ hcurrent => hcurrent

theorem Sourced.set {r : AgentActionTriggerScheduler × Task} (h : r.1.Sourced)
    (htask : r.1.Faithful r.2) (k : Nat) : { r.1 with tasks := r.1.tasks.set k r.2 }.Sourced := by
  refine ⟨h.timers, ?_⟩
  intro task hmem
  rcases List.mem_or_eq_of_mem_set hmem with hmem | rfl
  · exact (h.tasks task hmem).keeps fun _ _ _ hcurrent => hcurrent
  · exact htask.keeps fun _ _ _ hcurrent => hcurrent

/-! ## Waiting calls -/

theorem faithful_next {origin : Origin} {rest : List AgentActionTrigger}
    (hrest : ∀ trigger ∈ rest, s.Current origin trigger.id) : s.Faithful (.next origin rest) := by
  refine ⟨trivial, ?_⟩
  rintro _ _ ⟨⟩
  rename_i trigger hmem
  exact hrest trigger hmem

theorem faithful_scheduleTemporalTrigger {trigger : AgentActionTrigger} {now : DateTime}
    {origin : Origin} {rest : List AgentActionTrigger} (hhead : s.Current origin trigger.id)
    (hrest : ∀ trigger ∈ rest, s.Current origin trigger.id) :
    s.Faithful (s.scheduleTemporalTrigger env trigger now origin rest) := by
  rw [scheduleTemporalTrigger]
  split
  · exact faithful_next hrest
  · rename_i hstarted
    split
    · exact faithful_next hrest
    · exact faithful_next hrest
    · refine ⟨⟨(hhead.1 (by simpa using hstarted)).symm, hhead.2.symm⟩, ?_⟩
      rintro _ _ ⟨⟩
      rename_i trigger hmem
      exact hrest trigger hmem

theorem faithful_reloadLoop {now : DateTime} {origin : Origin}
    {triggers : List AgentActionTrigger}
    (h : ∀ trigger ∈ triggers, s.Current origin trigger.id) :
    s.Faithful (s.reloadLoop env now origin triggers) := by
  cases triggers with
  | nil => exact faithful_done s
  | cons trigger rest =>
    exact faithful_scheduleTemporalTrigger (h trigger (by simp))
      fun other hmem => h other (by simp [hmem])

theorem current_origin (s : AgentActionTriggerScheduler) (id : String) :
    s.Current s.origin id :=
  ⟨fun _ => rfl, rfl⟩

theorem faithful_reload (s : AgentActionTriggerScheduler) (starting : Bool) :
    (s.reloadTemporalTriggers starting).1.Faithful (s.reloadTemporalTriggers starting).2 := by
  rw [reloadTemporalTriggers]
  split
  · dsimp only
    split
    · exact ⟨trivial, by rintro _ _ ⟨⟩⟩
    · exact faithful_done _
  · split
    · dsimp only
      split
      · exact ⟨trivial, by rintro _ _ ⟨⟩⟩
      · exact faithful_done _
    · split
      · exact faithful_done _
      · refine ⟨trivial, ?_⟩
        rintro _ id ⟨⟩
        exact ⟨fun _ => rfl, rfl⟩

theorem Faithful.saved {result : Option Bool} {task : Task}
    {r : AgentActionTriggerScheduler × Task} (hs : s.Sourced) (htask : s.Faithful task)
    (h : s.saved result task = some r) : r.1.Sourced ∧ r.1.Faithful r.2 := by
  obtain ⟨id, nextRunAt, generation, revision, origin, rest, rfl, hr, heq⟩ := saved_cases h
  have hnext : s.Faithful (.next origin rest) :=
    faithful_next fun trigger hmem => htask.loads _ _ (.save _ _ _ _ _ hmem)
  rw [hr]
  rcases heq with heq | ⟨-, heq⟩
  · rw [heq]
    exact ⟨hs, hnext⟩
  · rw [heq]
    refine ⟨hs.installTimer htask.stamped, hnext.keeps ?_⟩
    rintro _ id' - ⟨hgeneration, hrevision⟩
    obtain ⟨hstarted, -⟩ := s.started_removeTimer id
    obtain ⟨-, hsame, hrevisions, -⟩ := s.removeTimer_keeps id
    refine ⟨?_, hrevision.trans (congrFun hrevisions id').symm⟩
    intro hm
    exact (hgeneration (hstarted ▸ hm)).trans hsame.symm

theorem Faithful.listed {result : Except Bool (List AgentActionTrigger)} {now : DateTime}
    {task : Task} {r : AgentActionTriggerScheduler × Task} (hs : s.Sourced)
    (htask : s.Faithful task) (h : s.listed env result now task = some r) :
    r.1.Sourced ∧ r.1.Faithful r.2 := by
  obtain ⟨hquiet, starting, origin, rfl, ⟨transient, hr⟩ | hr | ⟨triggers, rfl⟩⟩ := listed_cases h
  · rw [hr]
    exact ⟨hs.quiet hquiet, trivial, by rintro _ _ ⟨⟩⟩
  · rw [hr]
    exact ⟨hs.quiet hquiet, faithful_done _⟩
  · exact ⟨hs, faithful_reloadLoop fun trigger _ => htask.loads _ _ (.list _ _ _)⟩

theorem Faithful.dispatched {task : Task} {r : AgentActionTriggerScheduler × Task}
    (hs : s.Sourced) (htask : s.Faithful task) (h : s.dispatched task = some r) :
    r.1.Sourced ∧ r.1.Faithful r.2 := by
  obtain ⟨heq, d, rfl, hr | hr⟩ := dispatched_cases h
  · rw [heq, hr]
    exact ⟨hs, htask.stamped, by rintro _ _ ⟨⟩⟩
  · rw [heq, hr]
    exact ⟨hs, faithful_done s⟩

/-- A trigger is scheduled again for the call behind its dispatch: the check of the callback
says that the counters are still those of that call. -/
theorem Faithful.loaded {result : Option AgentActionTrigger} {now : DateTime} {task : Task}
    {r : AgentActionTriggerScheduler × Task} (hs : s.Sourced) (htask : s.Faithful task)
    (h : s.loaded env result now task = some r) : r.1.Sourced ∧ r.1.Faithful r.2 := by
  obtain ⟨heq, d, rfl, hr | ⟨hlive, trigger, hid, hr⟩⟩ := loaded_cases h
  · rw [heq, hr]
    exact ⟨hs, faithful_done s⟩
  · rw [heq, hr]
    simp only [isTriggerLive, isSchedulingLive, Bool.and_eq_true, beq_iff_eq] at hlive
    obtain ⟨hgeneration, hrevision⟩ := htask.stamped
    refine ⟨hs, faithful_scheduleTemporalTrigger ⟨fun _ => ?_, ?_⟩ (by simp)⟩
    · rw [← hgeneration, hlive.1.2]
    · show d.origin.revisions trigger.id = _
      rw [hid, ← hrevision, hlive.2]

theorem faithful_startLocked (hs : s.Sourced)
    (hstart : ∀ task ∈ s.tasks, ∀ origin id, task.Loads origin id →
      origin.generation = s.scheduleGeneration) :
    s.startLocked.1.Sourced ∧ s.startLocked.1.Faithful s.startLocked.2 :=
  ⟨(hs.started hstart).quiet (quiet_reload _ true), faithful_reload _ true⟩

theorem sourced_expire {i : Nat} {r : AgentActionTriggerScheduler × Task} (hs : s.Sourced)
    (h : s.expire i = some r) : (spawn r).Sourced := by
  obtain ⟨m, hquiet, rfl | ⟨timer, htimer, -, d, rfl, rfl⟩⟩ := expire_cases h
  · exact (hs.quiet hquiet).spawn (faithful_done m)
  · have hm := hs.quiet hquiet
    refine Sourced.spawn ⟨hm.timers, ?_⟩ ⟨hs.timers timer htimer, by rintro _ _ ⟨⟩⟩
    intro task htask
    exact (hm.tasks task htask).keeps fun _ _ _ hcurrent => hcurrent

theorem sourced_resume {k : Nat} {go : Task → Option (AgentActionTriggerScheduler × Task)}
    {s' : AgentActionTriggerScheduler} (hs : s.Sourced) (h : resume s k go = some s')
    (hgo : ∀ task r, s.Faithful task → go task = some r → r.1.Sourced ∧ r.1.Faithful r.2) :
    s'.Sourced := by
  obtain ⟨task, hmem, r, hr, rfl⟩ := resume_cases h
  obtain ⟨hsourced, hfaithful⟩ := hgo task r (hs.tasks task hmem) hr
  exact hsourced.set hfaithful k

theorem faithful_start (s : AgentActionTriggerScheduler) : s.start.1.Faithful s.start.2 := by
  rw [start]
  split
  · exact faithful_done _
  · split
    · exact faithful_done _
    · split
      · exact faithful_done _
      · exact ⟨trivial, by rintro _ _ ⟨⟩⟩

theorem faithful_syncTrigger (s : AgentActionTriggerScheduler) (env : ScheduleEnv)
    (trigger : AgentActionTrigger) (now : DateTime) :
    (s.syncTrigger env trigger now).1.Faithful (s.syncTrigger env trigger now).2 := by
  rw [syncTrigger]
  split
  · exact faithful_done _
  · split
    · exact faithful_done _
    · exact faithful_scheduleTemporalTrigger (current_origin _ _) (by simp)

/-- What an undisturbed step does to the origins. -/
theorem Sourced.step {event : Event} {s' : AgentActionTriggerScheduler} (hs : s.Sourced)
    (hguard : Undisturbed hasLock s event)
    (h : (agentActionTriggerScheduler env hasLock).step s event = some s') : s'.Sourced := by
  have hsupersedes : ∀ id, event.supersedes id → ∀ task ∈ s.tasks, ∀ origin,
      ¬task.Loads origin id :=
    fun id hid task htask origin hloads => (hguard task htask origin id hloads).1 hid
  have hstarts : event.starts hasLock → ∀ task ∈ s.tasks, ∀ origin id, task.Loads origin id →
      origin.generation = s.scheduleGeneration :=
    fun hstarts task htask origin id hloads => (hguard task htask origin id hloads).2 hstarts
  cases event with
  | start =>
    obtain rfl := Option.some.inj h
    exact (hs.quiet s.quiet_start).spawn s.faithful_start
  | stop =>
    obtain rfl := Option.some.inj h
    exact hs.quiet (.paused .same)
  | reloadTemporalTriggers =>
    obtain rfl := Option.some.inj h
    exact (hs.quiet (s.quiet_reload false)).spawn (s.faithful_reload false)
  | syncTrigger trigger now =>
    obtain rfl := Option.some.inj h
    refine Sourced.spawn ?_ (s.faithful_syncTrigger env trigger now)
    rw [syncTrigger_fst]
    exact hs.unscheduleTrigger (hsupersedes trigger.id rfl)
  | unscheduleTrigger id =>
    obtain rfl := Option.some.inj h
    exact hs.unscheduleTrigger (hsupersedes id rfl)
  | setFeatureGate allows =>
    obtain rfl := Option.some.inj h
    exact hs.keeps rfl rfl (fun hm => ⟨hm, rfl⟩) fun timer htimer => ⟨timer, htimer, .inl rfl⟩
  | expire i =>
    obtain ⟨r, hr, rfl⟩ := Option.map_eq_some_iff.mp h
    exact sourced_expire hs hr
  | released k =>
    refine sourced_resume hs h fun task r _ hr => ?_
    obtain rfl | ⟨hlock, rfl⟩ := released_cases hr
    · exact ⟨hs, trivial, by rintro _ _ ⟨⟩⟩
    · exact faithful_startLocked hs (hstarts hlock)
  | acquired k success =>
    refine sourced_resume hs h fun task r _ hr => ?_
    obtain rfl | ⟨hsuccess, rfl⟩ := acquired_cases hr
    · exact ⟨hs, faithful_done s⟩
    · exact faithful_startLocked hs (hstarts hsuccess)
  | listed k result now => exact sourced_resume hs h fun _ _ htask => htask.listed hs
  | reloadFailed k =>
    refine sourced_resume hs h fun task r _ hr => ?_
    obtain ⟨hquiet, hdone⟩ := reloadFailed_cases hr
    rw [hdone]
    exact ⟨hs.quiet hquiet, faithful_done _⟩
  | saved k result => exact sourced_resume hs h fun _ _ htask => htask.saved hs
  | proceed k now =>
    refine sourced_resume hs h fun task r htask hr => ?_
    obtain ⟨origin, rest, rfl, rfl⟩ := proceed_cases hr
    exact ⟨hs, faithful_reloadLoop fun trigger hmem => htask.loads _ _ (.next _ hmem)⟩
  | dispatched k => exact sourced_resume hs h fun _ _ htask => htask.dispatched hs
  | loaded k result now => exact sourced_resume hs h fun _ _ htask => htask.loaded hs

theorem sourced_of_reach
    (h : (agentActionTriggerScheduler env hasLock).Reach (Undisturbed hasLock) s) :
    s.Sourced := by
  refine h.invariant (I := Sourced) ?_ ?_
  · rintro s rfl
    exact ⟨by simp, by simp⟩
  · intro s event s' hs hguard hstep
    exact hs.step hguard hstep

/-- A dispatch begins on behalf of a call that nothing has superseded. -/
def CurrentDispatch (s : AgentActionTriggerScheduler) (d : Dispatch) : Prop :=
  d.origin.generation = s.scheduleGeneration ∧
    d.origin.revisions d.triggerId = s.triggerRevisions d.triggerId ∧ s.started = true

theorem Sourced.dispatch {event : Event} {s' : AgentActionTriggerScheduler} {d : Dispatch}
    (hs : s.Sourced) (h : (agentActionTriggerScheduler env hasLock).step s event = some s')
    (hd : s'.dispatches = s.dispatches ++ [d]) : s.CurrentDispatch d := by
  obtain ⟨hgeneration, hrevision, hstarted, timer, htimer, hid, heq⟩ :=
    (steps_of_step h).dispatch_current hd
  obtain ⟨hgeneration', hrevision', horigin⟩ := heq
  obtain ⟨hstamp, hstamp'⟩ := hs.timers timer htimer
  refine ⟨?_, ?_, hstarted⟩
  · rw [horigin, ← hstamp, ← hgeneration', hgeneration]
  · rw [horigin, hid, ← hstamp', ← hrevision', hrevision, hid]

/-- In every run a trigger has at most one active timer.  In a run of undisturbed steps every
step begins at most one dispatch, on behalf of a call that nothing has superseded: after a
trigger was superseded or the scheduler stopped, every dispatch that begins is on behalf of a
later call. -/
theorem scheduler_safety (env : ScheduleEnv) (hasLock : Bool) :
    (∀ s, (agentActionTriggerScheduler env hasLock).Reachable s →
      ∀ (i j : Nat) (timer other : SchedulerTimer), s.timers[i]? = some timer →
        s.timers[j]? = some other → timer.active = true → other.active = true →
        timer.triggerId = other.triggerId → i = j) ∧
    (∀ s, (agentActionTriggerScheduler env hasLock).Reach (Undisturbed hasLock) s →
      ∀ event s', (agentActionTriggerScheduler env hasLock).step s event = some s' →
        s'.dispatches = s.dispatches ∨
          ∃ d, s'.dispatches = s.dispatches ++ [d] ∧ s.CurrentDispatch d) ∧
    ∀ s event s' t later t' d,
      (agentActionTriggerScheduler env hasLock).step s event = some s' →
      (agentActionTriggerScheduler env hasLock).Leads s' t →
      (agentActionTriggerScheduler env hasLock).Reach (Undisturbed hasLock) t →
      (agentActionTriggerScheduler env hasLock).step t later = some t' →
      t'.dispatches = t.dispatches ++ [d] →
      (event = .stop → s.scheduleGeneration < d.origin.generation) ∧
        (event.supersedes d.triggerId →
          s.triggerRevisions d.triggerId < d.origin.revisions d.triggerId) := by
  refine ⟨?_, ?_, ?_⟩
  · intro s hs i j timer other hi hj hactive hactive' hid
    have hinv := inv_of_reachable hs
    have hfirst := hinv.indexed i timer hi hactive
    have hsecond := hinv.indexed j other hj hactive'
    rw [hid, hsecond] at hfirst
    exact (Option.some.inj hfirst).symm
  · intro s hs event s' hstep
    obtain ⟨m, tasks, gate, hm, rfl | ⟨d, rfl, -⟩⟩ := steps_of_step hstep
    · exact .inl hm.dispatches
    · have hbegun : m.dispatches ++ [d] = s.dispatches ++ [d] := by rw [hm.dispatches]
      exact .inr ⟨d, hbegun, (sourced_of_reach hs).dispatch hstep hbegun⟩
  · intro s event s' t later t' d hstep hleads ht hlater hd
    obtain ⟨hgeneration, hrevision, -⟩ := (sourced_of_reach ht).dispatch hlater hd
    obtain ⟨hgrows, hgrows'⟩ := grows_of_leads hleads
    refine ⟨?_, ?_⟩
    · rintro rfl
      obtain rfl := Option.some.inj hstep
      rw [hgeneration]
      exact Nat.lt_of_succ_le hgrows
    · intro hsupersedes
      rw [hrevision]
      exact (revision_lt_of_supersedes hstep hsupersedes).trans_le (hgrows' _)

/-- A trigger that is due ten microseconds after the epoch. -/
def dueOnce (id : String) : AgentActionTrigger where
  id := id
  type := .once
  schedule := { startAt := some ⟨10, utc⟩ }

/-- The scheduler is started and a trigger is synchronized twice; the repository answers the
first of the two calls after the second was made. -/
def nightlyRun : List Event :=
  [.start, .released 0, .listed 0 (.ok []) ⟨0, utc⟩, .syncTrigger (dueOnce "nightly") ⟨0, utc⟩,
    .syncTrigger (dueOnce "nightly") ⟨0, utc⟩, .saved 1 (some true), .saved 2 (some true)]

/-- The scheduler is started with two triggers; while the repository writes the first, the
second is unscheduled. -/
def unscheduledRun : List Event :=
  [.start, .released 0, .listed 0 (.ok [dueOnce "morning", dueOnce "nightly"]) ⟨0, utc⟩,
    .unscheduleTrigger "nightly", .saved 0 (some true), .proceed 0 ⟨0, utc⟩,
    .saved 0 (some true)]

/-- The state after a run. -/
def after (events : List Event) : AgentActionTriggerScheduler :=
  ((agentActionTriggerScheduler ⟨utc, fun _ => none⟩ false).run {} events).getD {}

/-- No reload waits. -/
def idle (s : AgentActionTriggerScheduler) : Bool :=
  s.tasks.all fun task =>
    match task with
    | .list _ _ => false
    | .save _ _ _ _ _ rest | .next _ rest => rest.isEmpty
    | _ => true

theorem undisturbed_of_idle {event : Event} (h : s.idle = true) :
    Undisturbed hasLock s event := by
  intro task htask origin id hloads
  have htask' := List.all_eq_true.mp h task htask
  cases hloads with
  | list => exact absurd htask' (by simp)
  | save _ _ _ _ _ hmem | next _ hmem =>
    rw [List.isEmpty_iff] at htask'
    exact absurd hmem (by simp [htask'])

theorem undisturbed_of_listed {k : Nat} {result : Except Bool (List AgentActionTrigger)}
    {now : DateTime} : Undisturbed hasLock s (.listed k result now) :=
  fun _ _ _ _ _ => ⟨id, fun h => h.elim⟩

/-- Only the second call has made a timer, and its dispatch is on behalf of that call. -/
theorem scheduler_safety_nightly :
    (after nightlyRun).timers.map SchedulerTimer.revision = [2] ∧
      ∃ s', (agentActionTriggerScheduler ⟨utc, fun _ => none⟩ false).step (after nightlyRun)
          (.expire 0) = some s' ∧
        ∃ d : Dispatch, s'.dispatches = (after nightlyRun).dispatches ++ [d] ∧
          (after nightlyRun).CurrentDispatch d := by
  have hreach : (agentActionTriggerScheduler ⟨utc, fun _ => none⟩ false).Reach
      (Undisturbed false) (after nightlyRun) := by
    refine Machine.Reach.of_run (.start rfl) nightlyRun ?_ rfl
    exact ⟨undisturbed_of_idle rfl, undisturbed_of_idle rfl, undisturbed_of_listed,
      undisturbed_of_idle rfl, undisturbed_of_idle rfl, undisturbed_of_idle rfl,
      undisturbed_of_idle rfl, trivial⟩
  refine ⟨rfl, _, rfl, ?_⟩
  obtain hsame | ⟨d, hd, hcurrent⟩ :=
    (scheduler_safety ⟨utc, fun _ => none⟩ false).2.1 _ hreach (.expire 0) _ rfl
  · exact absurd (congrArg List.length hsame) (by decide)
  · exact ⟨d, hd, hcurrent⟩

/-- The reload takes the trigger for current when it comes to it, and a dispatch begins on
behalf of a list that was loaded before the trigger was unscheduled. -/
theorem reload_dispatches_superseded :
    (agentActionTriggerScheduler ⟨utc, fun _ => none⟩ false).Reachable (after unscheduledRun) ∧
      ∃ s', (agentActionTriggerScheduler ⟨utc, fun _ => none⟩ false).step (after unscheduledRun)
          (.expire 1) = some s' ∧
        ∃ d : Dispatch, s'.dispatches = (after unscheduledRun).dispatches ++ [d] ∧
          d.triggerId = "nightly" ∧ d.origin.revisions "nightly" = 0 ∧
          (after unscheduledRun).triggerRevisions "nightly" = 1 ∧
          ¬(after unscheduledRun).CurrentDispatch d := by
  have hreach : (agentActionTriggerScheduler ⟨utc, fun _ => none⟩ false).Reachable
      (after unscheduledRun) :=
    @Machine.reachable_of_run _ _ (agentActionTriggerScheduler ⟨utc, fun _ => none⟩ false) {} _
      rfl unscheduledRun rfl
  refine ⟨hreach, _, rfl, _, rfl, rfl, rfl, rfl, ?_⟩
  rintro ⟨-, hrevision, -⟩
  exact absurd hrevision (by decide)

end AgentActionTriggerScheduler

end PlugAgente.Schedule
