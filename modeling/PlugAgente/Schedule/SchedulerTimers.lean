import PlugAgente.Machine.Ledger
import PlugAgente.Schedule.Scheduler

/-!
# The timers of the scheduler

A timer that is active is the one that the scheduler holds for its trigger, and it was made
for the present revision of that trigger and the present generation: whatever raises one of
these numbers cancels the timers that were made for the old one in the same turn.  The
callback compares them once more, and calls `_dispatchTrigger` in that turn.
-/

namespace PlugAgente.Schedule

namespace AgentActionTriggerScheduler

variable {s m t : AgentActionTriggerScheduler} {env : ScheduleEnv} {hasLock : Bool}

/-- The invariant of the timers. -/
structure Inv (s : AgentActionTriggerScheduler) : Prop where
  indexed : ∀ (i : Nat) (timer : SchedulerTimer), s.timers[i]? = some timer →
    timer.active = true → s.timersByTriggerId timer.triggerId = some i
  live : ∀ (i : Nat) (timer : SchedulerTimer), s.timers[i]? = some timer →
    timer.active = true →
    s.isTriggerLive timer.triggerId timer.generation timer.revision = true

/-- What a part of a turn that dispatches nothing does. -/
structure Advances (s m : AgentActionTriggerScheduler) : Prop where
  inv : s.Inv → m.Inv
  generation : s.scheduleGeneration ≤ m.scheduleGeneration
  revisions : ∀ id, s.triggerRevisions id ≤ m.triggerRevisions id
  dispatches : m.dispatches = s.dispatches

theorem Advances.refl (s : AgentActionTriggerScheduler) : s.Advances s :=
  ⟨id, le_rfl, fun _ => le_rfl, rfl⟩

theorem Advances.trans (h : s.Advances m) (h' : m.Advances t) : s.Advances t :=
  ⟨fun hs => h'.inv (h.inv hs), h.generation.trans h'.generation,
    fun id => (h.revisions id).trans (h'.revisions id), h'.dispatches.trans h.dispatches⟩

theorem inv_of_inactive
    (h : ∀ (i : Nat) (timer : SchedulerTimer), s.timers[i]? = some timer →
      timer.active = false) : s.Inv := by
  constructor
  · intro i timer hi hactive
    rw [h i timer hi] at hactive
    exact absurd hactive (by simp)
  · intro i timer hi hactive
    rw [h i timer hi] at hactive
    exact absurd hactive (by simp)

/-! ## Timers -/

theorem inactive_cancelAllTimers
    (h : ∀ (i : Nat) (timer : SchedulerTimer), s.timers[i]? = some timer →
      timer.active = true → s.timersByTriggerId timer.triggerId = some i)
    {i : Nat} {timer : SchedulerTimer} (hi : s.cancelAllTimers.timers[i]? = some timer) :
    timer.active = false := by
  change (s.timers.mapIdx _)[i]? = some timer at hi
  rw [List.getElem?_mapIdx, Option.map_eq_some_iff] at hi
  obtain ⟨old, hold, rfl⟩ := hi
  split
  · rfl
  · rename_i hne
    by_contra hactive
    exact hne (h i old hold (by simpa using hactive))

theorem active_of_cancel {timers : List SchedulerTimer} {i n : Nat} {timer : SchedulerTimer}
    (hn : (timers.modify i SchedulerTimer.cancel)[n]? = some timer)
    (hactive : timer.active = true) : n ≠ i ∧ timers[n]? = some timer := by
  rw [List.getElem?_modify] at hn
  by_cases hni : i = n
  · subst hni
    rw [Option.map_eq_map, Option.map_eq_some_iff] at hn
    obtain ⟨old, -, rfl⟩ := hn
    exact absurd hactive (by simp [SchedulerTimer.cancel])
  · exact ⟨fun he => hni he.symm, by simpa [hni] using hn⟩

theorem active_of_removeTimer {id : String} {n : Nat} {timer : SchedulerTimer}
    (hn : (s.removeTimer id).timers[n]? = some timer) (hactive : timer.active = true) :
    s.timers[n]? = some timer ∧ s.timersByTriggerId id ≠ some n := by
  rw [removeTimer] at hn
  cases hmap : s.timersByTriggerId id with
  | none =>
    rw [hmap] at hn
    exact ⟨hn, by simp⟩
  | some i =>
    rw [hmap] at hn
    obtain ⟨hne, hn⟩ := active_of_cancel hn hactive
    exact ⟨hn, fun he => hne (Option.some.inj he).symm⟩

theorem timersByTriggerId_removeTimer {id other : String} (hother : other ≠ id) :
    (s.removeTimer id).timersByTriggerId other = s.timersByTriggerId other := by
  rw [removeTimer]
  split
  · rfl
  · exact Function.update_of_ne hother _ _

theorem removeTimer_keeps (s : AgentActionTriggerScheduler) (id : String) :
    (s.removeTimer id).isTriggerLive = s.isTriggerLive ∧
      (s.removeTimer id).scheduleGeneration = s.scheduleGeneration ∧
      (s.removeTimer id).triggerRevisions = s.triggerRevisions ∧
      (s.removeTimer id).dispatches = s.dispatches := by
  rw [removeTimer]
  split <;> exact ⟨rfl, rfl, rfl, rfl⟩

theorem other_of_removeTimer
    (h : ∀ (i : Nat) (timer : SchedulerTimer), s.timers[i]? = some timer →
      timer.active = true → s.timersByTriggerId timer.triggerId = some i)
    {id : String} {n : Nat} {timer : SchedulerTimer}
    (hn : (s.removeTimer id).timers[n]? = some timer) (hactive : timer.active = true) :
    s.timers[n]? = some timer ∧ timer.triggerId ≠ id ∧
      (s.removeTimer id).timersByTriggerId timer.triggerId = some n := by
  obtain ⟨hold, hne⟩ := active_of_removeTimer hn hactive
  have hindexed := h n timer hold hactive
  have hother : timer.triggerId ≠ id := by
    intro he
    rw [he] at hindexed
    exact hne hindexed
  exact ⟨hold, hother, (timersByTriggerId_removeTimer hother).trans hindexed⟩

/-! ## Parts of a turn -/

theorem advances_cancelAllTimers (s : AgentActionTriggerScheduler) :
    s.Advances s.cancelAllTimers :=
  ⟨fun hs => inv_of_inactive fun _ _ hi => inactive_cancelAllTimers hs.indexed hi, le_rfl,
    fun _ => le_rfl, rfl⟩

theorem advances_pauseScheduling (s : AgentActionTriggerScheduler) :
    s.Advances s.pauseScheduling :=
  ⟨fun hs => inv_of_inactive fun _ _ hi => inactive_cancelAllTimers hs.indexed hi,
    Nat.le_succ _, fun _ => le_rfl, rfl⟩

theorem advances_disable (s : AgentActionTriggerScheduler) :
    s.Advances s.disableAfterBootstrapFailure :=
  ⟨fun hs => inv_of_inactive fun _ _ hi => inactive_cancelAllTimers hs.indexed hi,
    Nat.le_succ _, fun _ => le_rfl, rfl⟩

theorem advances_removeTimer (s : AgentActionTriggerScheduler) (id : String) :
    s.Advances (s.removeTimer id) := by
  obtain ⟨hlive, hgeneration, hrevisions, hdispatches⟩ := s.removeTimer_keeps id
  refine ⟨?_, hgeneration.ge, fun n => (congrFun hrevisions n).ge, hdispatches⟩
  intro hs
  constructor
  · intro n timer hn hactive
    exact (other_of_removeTimer hs.indexed hn hactive).2.2
  · intro n timer hn hactive
    rw [hlive]
    exact hs.live n timer (active_of_removeTimer hn hactive).1 hactive

theorem revisions_unscheduleTrigger (s : AgentActionTriggerScheduler) (id : String) :
    (s.unscheduleTrigger id).triggerRevisions =
      Function.update s.triggerRevisions id (s.triggerRevisions id + 1) :=
  (removeTimer_keeps _ id).2.2.1

theorem advances_unscheduleTrigger (s : AgentActionTriggerScheduler) (id : String) :
    s.Advances (s.unscheduleTrigger id) := by
  let bumped : AgentActionTriggerScheduler :=
    { s with
      triggerRevisions := Function.update s.triggerRevisions id (s.triggerRevisions id + 1) }
  obtain ⟨hlive, hgeneration, hrevisions, hdispatches⟩ := bumped.removeTimer_keeps id
  refine ⟨?_, hgeneration.ge, ?_, hdispatches⟩
  · intro hs
    have hindexed : ∀ (i : Nat) (timer : SchedulerTimer), bumped.timers[i]? = some timer →
        timer.active = true → bumped.timersByTriggerId timer.triggerId = some i := hs.indexed
    constructor
    · intro n timer hn hactive
      exact (other_of_removeTimer hindexed hn hactive).2.2
    · intro n timer hn hactive
      obtain ⟨hold, hother, -⟩ := other_of_removeTimer hindexed hn hactive
      show (bumped.removeTimer id).isTriggerLive _ _ _ = true
      rw [hlive]
      have hbefore := hs.live n timer hold hactive
      show (s.isSchedulingLive timer.generation &&
        Function.update s.triggerRevisions id _ timer.triggerId == timer.revision) = true
      rw [Function.update_of_ne hother]
      exact hbefore
  · intro other
    rw [revisions_unscheduleTrigger]
    by_cases hother : other = id
    · subst hother
      rw [Function.update_self]
      omega
    · rw [Function.update_of_ne hother]

theorem advances_installTimer (s : AgentActionTriggerScheduler) {timer : SchedulerTimer}
    (hlive : s.isTriggerLive timer.triggerId timer.generation timer.revision = true) :
    s.Advances (s.installTimer timer) := by
  have hremoved := s.advances_removeTimer timer.triggerId
  obtain ⟨hkeeps, -⟩ := s.removeTimer_keeps timer.triggerId
  refine hremoved.trans ⟨?_, le_rfl, fun _ => le_rfl, rfl⟩
  intro hs
  constructor
  · intro n old hn hactive
    show Function.update (s.removeTimer timer.triggerId).timersByTriggerId timer.triggerId _
      old.triggerId = some n
    rcases Ledger.getElem?_added hn with hn | ⟨rfl, rfl⟩
    · have hindexed := hs.indexed n old hn hactive
      have hother : old.triggerId ≠ timer.triggerId := by
        intro he
        rw [he, removeTimer] at hindexed
        cases hmap : s.timersByTriggerId timer.triggerId with
        | none =>
          rw [hmap] at hindexed
          exact absurd (hmap.symm.trans hindexed) (by simp)
        | some i =>
          rw [hmap] at hindexed
          change Function.update s.timersByTriggerId timer.triggerId none timer.triggerId = _
            at hindexed
          rw [Function.update_self] at hindexed
          exact absurd hindexed (by simp)
      rw [Function.update_of_ne hother]
      exact hindexed
    · exact Function.update_self _ _ _
  · intro n old hn hactive
    show (s.removeTimer timer.triggerId).isTriggerLive _ _ _ = true
    rcases Ledger.getElem?_added hn with hn | ⟨rfl, rfl⟩
    · exact hs.live n old hn hactive
    · rw [hkeeps]
      exact hlive

theorem advances_fired (s : AgentActionTriggerScheduler) (i : Nat) :
    s.Advances { s with timers := s.timers.modify i SchedulerTimer.cancel } := by
  refine ⟨?_, le_rfl, fun _ => le_rfl, rfl⟩
  intro hs
  constructor
  · intro n timer hn hactive
    exact hs.indexed n timer (active_of_cancel hn hactive).2 hactive
  · intro n timer hn hactive
    exact hs.live n timer (active_of_cancel hn hactive).2 hactive

theorem advances_started (s : AgentActionTriggerScheduler) :
    s.Advances { s with started := true } := by
  refine ⟨?_, le_rfl, fun _ => le_rfl, rfl⟩
  intro hs
  refine ⟨hs.indexed, ?_⟩
  intro n timer hn hactive
  have hlive := hs.live n timer hn hactive
  simp only [isTriggerLive, isSchedulingLive, Bool.and_eq_true] at hlive ⊢
  exact ⟨⟨⟨trivial, hlive.1.1.2⟩, hlive.1.2⟩, hlive.2⟩

/-! ## Turns -/

/-- What a part of a turn comes to that supersedes no trigger, starts nothing and makes no
timer. -/
inductive Quiet (s : AgentActionTriggerScheduler) : AgentActionTriggerScheduler → Prop where
  | same : Quiet s s
  | cancelled {m : AgentActionTriggerScheduler} (h : Quiet s m) : Quiet s m.cancelAllTimers
  | paused {m : AgentActionTriggerScheduler} (h : Quiet s m) : Quiet s m.pauseScheduling
  | disabled {m : AgentActionTriggerScheduler} (h : Quiet s m) :
      Quiet s m.disableAfterBootstrapFailure
  | fired {m : AgentActionTriggerScheduler} (h : Quiet s m) (i : Nat) :
      Quiet s { m with timers := m.timers.modify i SchedulerTimer.cancel }
  | removed {m : AgentActionTriggerScheduler} (h : Quiet s m) (id : String) :
      Quiet s (m.removeTimer id)

theorem Quiet.advances (h : s.Quiet m) : s.Advances m := by
  induction h with
  | same => exact .refl s
  | cancelled _ ih => exact ih.trans (advances_cancelAllTimers _)
  | paused _ ih => exact ih.trans (advances_pauseScheduling _)
  | disabled _ ih => exact ih.trans (advances_disable _)
  | fired _ i ih => exact ih.trans (advances_fired _ i)
  | removed _ id ih => exact ih.trans (advances_removeTimer _ id)

theorem quiet_reload (s : AgentActionTriggerScheduler) (starting : Bool) :
    s.Quiet (s.reloadTemporalTriggers starting).1 := by
  rw [reloadTemporalTriggers]
  split
  · exact .paused .same
  · split
    · exact .cancelled .same
    · split
      · exact .same
      · exact .cancelled .same

theorem quiet_start (s : AgentActionTriggerScheduler) : s.Quiet s.start.1 := by
  rw [start]
  split
  · exact .paused .same
  · split
    · exact .same
    · split <;> exact .same

theorem advances_startLocked (s : AgentActionTriggerScheduler) : s.Advances s.startLocked.1 :=
  s.advances_started.trans (quiet_reload _ true).advances

theorem syncTrigger_fst (s : AgentActionTriggerScheduler) (env : ScheduleEnv)
    (trigger : AgentActionTrigger) (now : DateTime) :
    (s.syncTrigger env trigger now).1 = s.unscheduleTrigger trigger.id := by
  rw [syncTrigger]
  split
  · rfl
  · split <;> rfl

/-- A call of `_scheduleTemporalTrigger` is resumed: it makes a timer if its trigger is live,
and a reload goes on with the rest. -/
theorem saved_cases {result : Option Bool} {task : Task} {r : AgentActionTriggerScheduler × Task}
    (h : s.saved result task = some r) :
    ∃ triggerId nextRunAt generation revision origin rest,
      task = .save triggerId nextRunAt generation revision origin rest ∧
      r.2 = .next origin rest ∧
      (r.1 = s ∨ s.isTriggerLive triggerId generation revision = true ∧
        r.1 = s.installTimer ⟨triggerId, nextRunAt, generation, revision, origin, true⟩) := by
  rw [saved.eq_def] at h
  split at h
  · refine ⟨_, _, _, _, _, _, rfl, ?_⟩
    split at h
    · rename_i hlive
      obtain rfl := Option.some.inj h
      rw [Bool.and_eq_true] at hlive
      exact ⟨rfl, .inr ⟨hlive.2, rfl⟩⟩
    · obtain rfl := Option.some.inj h
      exact ⟨rfl, .inl rfl⟩
  · simp at h

theorem advances_saved {result : Option Bool} {task : Task}
    {r : AgentActionTriggerScheduler × Task} (h : s.saved result task = some r) :
    s.Advances r.1 := by
  obtain ⟨_, _, _, _, _, _, -, -, heq | ⟨hlive, heq⟩⟩ := saved_cases h
  · rw [heq]
    exact .refl s
  · rw [heq]
    exact advances_installTimer s hlive

theorem listed_cases {result : Except Bool (List AgentActionTrigger)} {now : DateTime}
    {task : Task} {r : AgentActionTriggerScheduler × Task}
    (h : s.listed env result now task = some r) :
    s.Quiet r.1 ∧ ∃ starting origin, task = .list starting origin ∧
      ((∃ transient, r.2 = .failedReload transient) ∨ r.2 = .done ∨
        ∃ triggers, r = (s, s.reloadLoop env now origin triggers)) := by
  rw [listed.eq_def] at h
  split at h
  · split at h
    · obtain rfl := Option.some.inj h
      refine ⟨.disabled .same, _, _, rfl, ?_⟩
      dsimp only
      split
      · exact .inl ⟨_, rfl⟩
      · exact .inr (.inl rfl)
    · obtain rfl := Option.some.inj h
      exact ⟨.same, _, _, rfl, .inr (.inr ⟨_, rfl⟩)⟩
  · simp at h

theorem reloadFailed_cases {task : Task} {r : AgentActionTriggerScheduler × Task}
    (h : s.reloadFailed task = some r) : s.Quiet r.1 ∧ r.2 = .done := by
  rw [reloadFailed.eq_def] at h
  split at h
  · obtain rfl := Option.some.inj h
    exact ⟨.paused .same, rfl⟩
  · obtain rfl := Option.some.inj h
    exact ⟨.disabled .same, rfl⟩
  · simp at h

theorem dispatched_cases {task : Task} {r : AgentActionTriggerScheduler × Task}
    (h : s.dispatched task = some r) :
    r.1 = s ∧ ∃ d, task = .dispatch d ∧ (r.2 = .fresh d ∨ r.2 = .done) := by
  rw [dispatched.eq_def] at h
  split at h
  · obtain rfl := Option.some.inj h
    refine ⟨rfl, _, rfl, ?_⟩
    dsimp only
    split
    · exact .inl rfl
    · exact .inr rfl
  · simp at h

theorem loaded_cases {result : Option AgentActionTrigger} {now : DateTime} {task : Task}
    {r : AgentActionTriggerScheduler × Task} (h : s.loaded env result now task = some r) :
    r.1 = s ∧ ∃ d, task = .fresh d ∧
      (r.2 = .done ∨
        s.isTriggerLive d.triggerId d.generation d.revision = true ∧
          ∃ trigger : AgentActionTrigger, trigger.id = d.triggerId ∧
            r.2 = s.scheduleTemporalTrigger env
              { trigger with lastScheduledAt := some d.scheduledAt } now d.origin []) := by
  rw [loaded.eq_def] at h
  split at h
  · split at h
    · obtain rfl := Option.some.inj h
      exact ⟨rfl, _, rfl, .inl rfl⟩
    · split at h
      · simp at h
      · rename_i hid
        split at h
        · obtain rfl := Option.some.inj h
          exact ⟨rfl, _, rfl, .inl rfl⟩
        · rename_i hlive
          obtain rfl := Option.some.inj h
          simp only [Bool.or_eq_true, Bool.not_eq_true', not_or, Bool.not_eq_false] at hlive
          exact ⟨rfl, _, rfl, .inr ⟨hlive.1.1, _, not_not.mp hid, rfl⟩⟩
  · simp at h

theorem released_cases {task : Task} {r : AgentActionTriggerScheduler × Task}
    (h : s.released hasLock task = some r) :
    r = (s, .lockAcquire) ∨ hasLock = false ∧ r = s.startLocked := by
  rw [released.eq_def] at h
  split at h
  · obtain rfl := Option.some.inj h
    cases hasLock with
    | true => exact .inl rfl
    | false => exact .inr ⟨rfl, rfl⟩
  · simp at h

theorem acquired_cases {success : Bool} {task : Task}
    {r : AgentActionTriggerScheduler × Task} (h : s.acquired success task = some r) :
    r = (s, .done) ∨ success = true ∧ r = s.startLocked := by
  rw [acquired.eq_def] at h
  split at h
  · obtain rfl := Option.some.inj h
    cases success with
    | true => exact .inr ⟨rfl, rfl⟩
    | false => exact .inl rfl
  · simp at h

theorem proceed_cases {now : DateTime} {task : Task} {r : AgentActionTriggerScheduler × Task}
    (h : s.proceed env now task = some r) :
    ∃ origin rest, task = .next origin rest ∧ r = (s, s.reloadLoop env now origin rest) := by
  rw [proceed.eq_def] at h
  split at h
  · obtain rfl := Option.some.inj h
    exact ⟨_, _, rfl, rfl⟩
  · simp at h

/-- A callback fires: its timer is no longer active, and at most one dispatch begins. -/
theorem expire_cases {i : Nat} {r : AgentActionTriggerScheduler × Task}
    (h : s.expire i = some r) :
    ∃ m, s.Quiet m ∧
      (r = (m, .done) ∨
        ∃ timer ∈ s.timers, s.isTriggerLive timer.triggerId timer.generation timer.revision = true ∧
          ∃ d : Dispatch, d = ⟨timer.triggerId, timer.scheduledAt, timer.generation,
              timer.revision, timer.origin⟩ ∧
            r = ({ m with dispatches := m.dispatches ++ [d] }, .dispatch d)) := by
  rw [expire] at h
  split at h
  · rename_i triggerId scheduledAt generation revision origin htimer
    obtain rfl := Option.some.inj h
    have hfired := Quiet.same.fired (s := s) i
    rw [dispatchAndReschedule]
    split
    · exact ⟨_, hfired, .inl rfl⟩
    · rename_i hlive
      dsimp only
      split
      · exact ⟨_, (hfired.removed triggerId).paused, .inl rfl⟩
      · split
        · exact ⟨_, hfired.removed triggerId, .inl rfl⟩
        · exact ⟨_, hfired.removed triggerId, .inr ⟨_, List.mem_of_getElem? htimer,
            by simpa [isTriggerLive, isSchedulingLive] using hlive, _, rfl, rfl⟩⟩
  · simp at h

/-! ## Steps -/

/-- A step without a dispatch, or with one dispatch of a live trigger. -/
def Steps (s s' : AgentActionTriggerScheduler) : Prop :=
  ∃ m tasks gate, s.Advances m ∧
    (s' = { m with tasks := tasks, featureGateAllows := gate } ∨
      ∃ d : Dispatch,
        s' = { m with
          tasks := tasks, featureGateAllows := gate, dispatches := m.dispatches ++ [d] } ∧
        s.isTriggerLive d.triggerId d.generation d.revision = true ∧
        ∃ timer ∈ s.timers, d.triggerId = timer.triggerId ∧ d.generation = timer.generation ∧
          d.revision = timer.revision ∧ d.origin = timer.origin)

theorem steps_of_advances (h : s.Advances m) : s.Steps m :=
  ⟨m, m.tasks, m.featureGateAllows, h, .inl rfl⟩

theorem steps_spawn {r : AgentActionTriggerScheduler × Task} (h : s.Advances r.1) :
    s.Steps (spawn r) :=
  ⟨r.1, _, r.1.featureGateAllows, h, .inl rfl⟩

theorem resume_cases {k : Nat} {go : Task → Option (AgentActionTriggerScheduler × Task)}
    {s' : AgentActionTriggerScheduler} (h : resume s k go = some s') :
    ∃ task ∈ s.tasks, ∃ r, go task = some r ∧ s' = { r.1 with tasks := r.1.tasks.set k r.2 } := by
  rw [resume] at h
  split at h
  · simp at h
  · rename_i task htask
    obtain ⟨r, hr, rfl⟩ := Option.map_eq_some_iff.mp h
    exact ⟨task, List.mem_of_getElem? htask, r, hr, rfl⟩

theorem steps_resume {k : Nat} {go : Task → Option (AgentActionTriggerScheduler × Task)}
    {s' : AgentActionTriggerScheduler} (h : resume s k go = some s')
    (hgo : ∀ task r, go task = some r → s.Advances r.1) : s.Steps s' := by
  obtain ⟨task, -, r, hr, rfl⟩ := resume_cases h
  exact ⟨r.1, _, r.1.featureGateAllows, hgo task r hr, .inl rfl⟩

theorem steps_expire {i : Nat} {r : AgentActionTriggerScheduler × Task}
    (h : s.expire i = some r) : s.Steps (spawn r) := by
  obtain ⟨m, hquiet, rfl | ⟨timer, htimer, hlive, d, rfl, rfl⟩⟩ := expire_cases h
  · exact steps_spawn hquiet.advances
  · exact ⟨m, _, m.featureGateAllows, hquiet.advances,
      .inr ⟨_, rfl, hlive, timer, htimer, rfl, rfl, rfl, rfl⟩⟩

theorem advances_released {task : Task} {r : AgentActionTriggerScheduler × Task}
    (h : s.released hasLock task = some r) : s.Advances r.1 := by
  obtain rfl | ⟨-, rfl⟩ := released_cases h
  · exact .refl s
  · exact s.advances_startLocked

theorem advances_acquired {success : Bool} {task : Task}
    {r : AgentActionTriggerScheduler × Task} (h : s.acquired success task = some r) :
    s.Advances r.1 := by
  obtain rfl | ⟨-, rfl⟩ := acquired_cases h
  · exact .refl s
  · exact s.advances_startLocked

theorem advances_of_eq {r : AgentActionTriggerScheduler × Task} (h : r.1 = s) :
    s.Advances r.1 := by
  rw [h]
  exact .refl s

theorem steps_of_step {event : Event} {s' : AgentActionTriggerScheduler}
    (h : (agentActionTriggerScheduler env hasLock).step s event = some s') : s.Steps s' := by
  cases event with
  | start =>
    obtain rfl := Option.some.inj h
    exact steps_spawn s.quiet_start.advances
  | stop =>
    obtain rfl := Option.some.inj h
    exact steps_of_advances s.advances_pauseScheduling
  | reloadTemporalTriggers =>
    obtain rfl := Option.some.inj h
    exact steps_spawn (s.quiet_reload false).advances
  | syncTrigger trigger now =>
    obtain rfl := Option.some.inj h
    refine steps_spawn ?_
    rw [syncTrigger_fst]
    exact s.advances_unscheduleTrigger trigger.id
  | unscheduleTrigger id =>
    obtain rfl := Option.some.inj h
    exact steps_of_advances (s.advances_unscheduleTrigger id)
  | setFeatureGate allows =>
    obtain rfl := Option.some.inj h
    exact ⟨s, s.tasks, allows, .refl s, .inl rfl⟩
  | expire i =>
    obtain ⟨r, hr, rfl⟩ := Option.map_eq_some_iff.mp h
    exact steps_expire hr
  | released k => exact steps_resume h fun _ _ => advances_released
  | acquired k success => exact steps_resume h fun _ _ => advances_acquired
  | listed k result now => exact steps_resume h fun _ _ hr => (listed_cases hr).1.advances
  | reloadFailed k => exact steps_resume h fun _ _ hr => (reloadFailed_cases hr).1.advances
  | saved k result => exact steps_resume h fun _ _ => advances_saved
  | proceed k now =>
    refine steps_resume h fun _ _ hr => ?_
    obtain ⟨_, _, -, rfl⟩ := proceed_cases hr
    exact .refl s
  | dispatched k =>
    exact steps_resume h fun _ _ hr => advances_of_eq (dispatched_cases hr).1
  | loaded k result now =>
    exact steps_resume h fun _ _ hr => advances_of_eq (loaded_cases hr).1

/-! ## Runs -/

theorem Inv.steps (h : s.Inv) {s' : AgentActionTriggerScheduler} (hsteps : s.Steps s') :
    s'.Inv := by
  obtain ⟨m, tasks, gate, hm, heq⟩ := hsteps
  have hinv := hm.inv h
  rcases heq with rfl | ⟨d, rfl, -⟩
  · exact ⟨hinv.indexed, hinv.live⟩
  · exact ⟨hinv.indexed, hinv.live⟩

theorem inv_of_reachable (h : (agentActionTriggerScheduler env hasLock).Reachable s) :
    s.Inv := by
  refine h.invariant (I := Inv) ?_ ?_
  · rintro s rfl
    exact inv_of_inactive (by simp)
  · intro s event s' hs _ hstep
    exact hs.steps (steps_of_step hstep)

theorem Steps.grows {s' : AgentActionTriggerScheduler} (h : s.Steps s') :
    s.scheduleGeneration ≤ s'.scheduleGeneration ∧
      ∀ id, s.triggerRevisions id ≤ s'.triggerRevisions id := by
  obtain ⟨m, tasks, gate, hm, rfl | ⟨d, rfl, -⟩⟩ := h
  · exact ⟨hm.generation, hm.revisions⟩
  · exact ⟨hm.generation, hm.revisions⟩

theorem grows_of_leads (h : (agentActionTriggerScheduler env hasLock).Leads s t) :
    s.scheduleGeneration ≤ t.scheduleGeneration ∧
      ∀ id, s.triggerRevisions id ≤ t.triggerRevisions id := by
  refine h.keeps (I := fun u => s.scheduleGeneration ≤ u.scheduleGeneration ∧
    ∀ id, s.triggerRevisions id ≤ u.triggerRevisions id) ?_ ⟨le_rfl, fun _ => le_rfl⟩
  rintro u event u' ⟨hgeneration, hrevisions⟩ hstep
  obtain ⟨hgeneration', hrevisions'⟩ := (steps_of_step hstep).grows
  exact ⟨hgeneration.trans hgeneration', fun id => (hrevisions id).trans (hrevisions' id)⟩

/-- A dispatch begins for a timer, for the present generation and the present revision of its
trigger. -/
theorem Steps.dispatch_current {s' : AgentActionTriggerScheduler} (h : s.Steps s')
    {d : Dispatch} (hd : s'.dispatches = s.dispatches ++ [d]) :
    d.generation = s.scheduleGeneration ∧ d.revision = s.triggerRevisions d.triggerId ∧
      s.started = true ∧
      ∃ timer ∈ s.timers, d.triggerId = timer.triggerId ∧ d.generation = timer.generation ∧
        d.revision = timer.revision ∧ d.origin = timer.origin := by
  obtain ⟨m, tasks, gate, hm, rfl | ⟨e, rfl, hlive, htimer⟩⟩ := h
  · change m.dispatches = s.dispatches ++ [d] at hd
    rw [hm.dispatches] at hd
    have hlength := congrArg List.length hd
    simp at hlength
  · change m.dispatches ++ [e] = s.dispatches ++ [d] at hd
    rw [hm.dispatches] at hd
    obtain rfl : e = d := by simpa using hd
    simp only [isTriggerLive, isSchedulingLive, Bool.and_eq_true, beq_iff_eq] at hlive
    exact ⟨hlive.1.2, hlive.2.symm, hlive.1.1.1, htimer⟩

end AgentActionTriggerScheduler

end PlugAgente.Schedule
