import PlugAgente.Schedule.Calculator

/-!
# Progress of a schedule

A slot that is not after `lastScheduledAt` is dispatched again at once.  A missed
slot is always after it, and so is a weekly or a monthly slot: both searches start
from a base that is after `lastScheduledAt` and skip the slots before it.

Two computations have no such search.  An interval is advanced by one step when
its boundary is not after `lastScheduledAt`, and an anchor in the future is
answered as it is, so both may still lie before a `lastScheduledAt` that the clock
has fallen behind.  A daily slot before the base is moved on by 24 hours, which on
a day of 25 hours may not leave that day.  `Progresses` says when neither happens:
for a daily trigger it compares the local date 24 hours on with the date of the
base, and looks at the slot of another date only where the wall clock has shown its
reading before or skips it.
-/

namespace PlugAgente.Schedule

variable {env : ScheduleEnv} {t : Trigger} {now d last : DateTime}

/-! ## The condition -/

/-- The anchor of an interval while it is in the future, and from then on the
boundary after the first one that is not before `now`. -/
def intervalBound (t : Trigger) (now : DateTime) (interval : Int) : DateTime :=
  let anchor := intervalAnchor t now
  if anchor.isAfter now then anchor
  else anchor.add (interval * (nextStep (now.micros - anchor.micros) interval + 1))

def inLocation (location : Option Zone) (d : DateTime) : DateTime :=
  match location with
  | some location => d.inZone location
  | none => d

/-- The zone in which slots are built. -/
def slotZone (env : ScheduleEnv) (location : Option Zone) : Zone :=
  location.getD env.system

def slotOn (env : ScheduleEnv) (location : Option Zone) (minutes : Int) (d : DateTime) : DateTime :=
  atTimeOfDay (slotZone env location) d minutes

/-- What the daily computations answer when the slot on the day of `base` is
before `base`: the slot 24 hours on, or with a location the slot on the day that
it is 24 hours on. -/
def slotAfter (env : ScheduleEnv) (location : Option Zone) (minutes : Int) (base : DateTime) :
    DateTime :=
  match location with
  | some location => atTimeOfDay location (base.add dayMicros) minutes
  | none => (atTimeOfDay env.system base minutes).add dayMicros

/-- The reading of the wall clock at the slot of a day. -/
def slotReading (day minutes : Int) : Int :=
  day * dayMicros + minutes.tdiv 60 * hourMicros + minutes % 60 * minuteMicros

/-- A reading is still to come at a time: the wall clock has shown neither it nor a
later one, and the constructor does not take it for an earlier one. -/
def ToCome (zone : Zone) (reading : Int) (time : DateTime) : Prop :=
  (∀ instant ≤ time.micros, instant + zone.offset instant < reading) ∧
    reading ≤ zone.ofWall reading + zone.offset (zone.ofWall reading)

/-- The step of 24 hours from a base whose slot has passed leaves the last slot
behind.  In the zone of the system the slot itself is moved.  In a location it is
the date that is moved: 24 hours on it has to be another one, or the last slot is
before that of the date.  Only where the wall clock was set back over the slot of
the other date, or skips it, does it matter which instant the zone takes it for. -/
def MovesOn (env : ScheduleEnv) (location : Option Zone) (minutes : Int)
    (base last : DateTime) : Prop :=
  match location with
  | none => last.micros - (slotOn env none minutes base).micros < dayMicros
  | some location =>
    if (base.add dayMicros).dayNumber = base.dayNumber then
      last.micros < (slotOn env (some location) minutes base).micros
    else
      let reading := slotReading (base.add dayMicros).dayNumber minutes
      ¬ToCome location reading last → last.micros < location.ofWall reading

/-- A missed slot is due. -/
def CatchesUp (t : Trigger) (missed : Option DateTime) : Prop :=
  t.schedule.ignoreMissedRuns = false ∧ missed.isSome = true

/-- The condition under which the next run is after the last one. -/
def Progresses (env : ScheduleEnv) (t : Trigger) (now : DateTime) : Prop :=
  ∀ last location, t.lastScheduledAt = some last → resolveLocation env t = .ok location →
    match t.type with
    | .interval =>
      ∀ interval, t.schedule.interval = some interval → 0 < interval →
        last.micros < (intervalBound t now interval).micros ∨
          t.withinEnd (intervalBound t now interval) = false
    | .daily =>
      ∀ minutes, t.schedule.timeOfDayMinutes = some minutes →
        let base := inLocation location (t.effectiveBase now)
        CatchesUp t (missedDailySlot (slotZone env location) t (inLocation location now) minutes) ∨
          base.micros ≤ (slotOn env location minutes base).micros ∨
          MovesOn env location minutes base last ∨
          t.withinEnd (slotAfter env location minutes base) = false
    | _ => True

/-! ## Slots after the last one -/

/-- An answer that is after `lastScheduledAt`, when both are there. -/
def Later (t : Trigger) (answer : Option DateTime) : Prop :=
  ∀ d last, answer = some d → t.lastScheduledAt = some last → last.micros < d.micros

theorem later_none (t : Trigger) : Later t none := by
  intro d last h
  cases h

theorem later_bounded_iff (hlast : t.lastScheduledAt = some last) :
    Later t (t.bounded d) ↔ last.micros < d.micros ∨ t.withinEnd d = false := by
  rw [Trigger.bounded]
  cases hend : t.withinEnd d with
  | true =>
    constructor
    · intro h
      exact Or.inl (h d last rfl hlast)
    · rintro (h | h) e last' he hlast'
      · cases he
        rw [hlast] at hlast'
        cases hlast'
        exact h
      · cases h
  | false =>
    constructor
    · intro _
      exact Or.inr rfl
    · intro _
      exact later_none t

theorem later_bounded (h : ∀ last, t.lastScheduledAt = some last → last.micros < d.micros) :
    Later t (t.bounded d) := by
  intro e last he hlast
  rw [Trigger.bounded] at he
  split at he
  · cases he
    exact h last hlast
  · cases he

theorem lt_bumped (last base : DateTime) :
    last.micros < (if !last.isBefore base then last.add 1 else base).micros := by
  split
  · show last.micros < last.micros + 1
    omega
  · rename_i hbefore
    simpa [DateTime.isBefore] using hbefore

theorem lt_effectiveBase (hlast : t.lastScheduledAt = some last) (now : DateTime) :
    last.micros < (t.effectiveBase now).micros := by
  unfold Trigger.effectiveBase
  rw [hlast]
  exact lt_bumped last _

theorem lt_of_firstMissed {candidates : List DateTime}
    (h : t.firstMissed candidates now = some d) (hlast : t.lastScheduledAt = some last) :
    last.micros < d.micros := by
  unfold Trigger.firstMissed at h
  have hd := List.find?_some h
  rw [hlast] at hd
  simp only [Option.orElse_eq_orElse, Option.orElse_some, Bool.and_eq_true] at hd
  simpa [DateTime.isAfter] using hd.2

theorem later_of_firstMissedOf {candidates : List (Option DateTime)} :
    Later t (firstMissedOf t now candidates) := by
  intro d last h hlast
  rw [firstMissedOf] at h
  obtain ⟨candidate, _, hround⟩ := List.exists_of_findSome?_eq_some h
  cases candidate with
  | none => cases hround
  | some c => exact lt_of_firstMissed hround hlast

theorem later_firstFrom {base : DateTime} {candidates : List (Option DateTime)}
    (hbase : ∀ last, t.lastScheduledAt = some last → last.micros < base.micros) :
    Later t (firstFrom t base candidates) := by
  rw [firstFrom]
  cases hfound : (candidates.findSome? _) with
  | none => exact later_none t
  | some answer =>
    obtain ⟨candidate, _, hround⟩ := List.exists_of_findSome?_eq_some hfound
    cases candidate with
    | none => cases hround
    | some c =>
      dsimp only at hround
      split at hround
      · cases hround
      · rename_i hbefore
        cases hround
        apply later_bounded
        intro last hlast
        have hle : base.micros ≤ c.micros := by simpa [DateTime.isBefore] using hbefore
        exact lt_of_lt_of_le (hbase last hlast) hle

theorem later_orMissed_iff {missed next : Option DateTime} (hmissed : Later t missed) :
    Later t (orMissed t missed next) ↔ CatchesUp t missed ∨ Later t next := by
  unfold orMissed CatchesUp
  cases t.schedule.ignoreMissedRuns with
  | true => simp
  | false =>
    cases missed with
    | none => simp
    | some slot =>
      simp only [Bool.not_false, if_true, Option.isSome_some, and_self, true_or, iff_true]
      apply later_bounded
      intro last hlast
      exact hmissed slot last rfl hlast

theorem later_orMissed {missed next : Option DateTime} (hmissed : Later t missed)
    (hnext : Later t next) : Later t (orMissed t missed next) :=
  (later_orMissed_iff hmissed).mpr (Or.inr hnext)

theorem later_search (now : DateTime) {base today : DateTime}
    {missed candidates : List (Option DateTime)}
    (hbase : base.micros = (t.effectiveBase now).micros) :
    Later t (orMissed t (firstMissedOf t today missed) (firstFrom t base candidates)) :=
  later_orMissed later_of_firstMissedOf
    (later_firstFrom fun _ hlast => hbase ▸ lt_effectiveBase hlast now)

/-! ## By type -/

theorem later_nextOnce (t : Trigger) (now : DateTime) : Later t (nextOnce t now) := by
  intro d last h hlast
  rw [nextOnce, hlast] at h
  cases h

theorem micros_inLocation (location : Option Zone) (d : DateTime) :
    (inLocation location d).micros = d.micros := by
  cases location <;> rfl

theorem le_nextStep {elapsed interval : Int} : elapsed / interval ≤ nextStep elapsed interval := by
  rw [nextStep]
  split <;> omega

theorem later_nextInterval_iff (hlast : t.lastScheduledAt = some last) {interval : Int}
    (hinterval : t.schedule.interval = some interval) (hpos : 0 < interval) :
    Later t (nextInterval t now) ↔
      last.micros < (intervalBound t now interval).micros ∨
        t.withinEnd (intervalBound t now interval) = false := by
  rw [nextInterval, hinterval]
  dsimp only
  rw [if_neg (by omega), intervalBound]
  split
  · exact later_bounded_iff hlast
  · generalize now.micros - (intervalAnchor t now).micros = elapsed
    -- Both slots that are answered before the last step are below the bound.
    have hnext : interval * nextStep elapsed interval <
        interval * (nextStep elapsed interval + 1) := by
      rw [Int.mul_add]
      omega
    have hmissed : interval * (elapsed / interval) ≤ interval * nextStep elapsed interval :=
      Int.mul_le_mul_of_nonneg_left le_nextStep (by omega)
    have hbelow : ∀ c : DateTime, notAfterLast t c = false → last.micros < c.micros := by
      intro c hc
      simpa [notAfterLast, hlast, DateTime.isAfter] using hc
    have hlater : ∀ c : DateTime, notAfterLast t c = false → Later t (t.bounded c) := by
      intro c hc
      exact (later_bounded_iff hlast).mpr (Or.inl (hbelow c hc))
    split
    · rename_i hcatch
      simp only [Bool.and_eq_true, Bool.not_eq_true'] at hcatch
      refine iff_of_true (hlater _ hcatch.2) (Or.inl ?_)
      have hlt := hbelow _ hcatch.2
      simp only [DateTime.add] at hlt ⊢
      omega
    · split
      · exact later_bounded_iff hlast
      · rename_i hafter
        have hafter' : notAfterLast t
            ((intervalAnchor t now).add (interval * nextStep elapsed interval)) = false := by
          simpa using hafter
        refine iff_of_true (hlater _ hafter') (Or.inl ?_)
        have hlt := hbelow _ hafter'
        simp only [DateTime.add] at hlt ⊢
        omega

theorem nextDaily_eq (env : ScheduleEnv) (t : Trigger) (now : DateTime) (location : Option Zone)
    {minutes : Int} (hminutes : t.schedule.timeOfDayMinutes = some minutes) :
    nextDaily env t now location =
      orMissed t (missedDailySlot (slotZone env location) t (inLocation location now) minutes)
        (let base := inLocation location (t.effectiveBase now)
        if (slotOn env location minutes base).isBefore base then
          t.bounded (slotAfter env location minutes base)
        else t.bounded (slotOn env location minutes base)) := by
  rw [nextDaily, hminutes]
  cases location <;> rfl

theorem later_missedDailySlot {zone : Zone} {minutes : Int} :
    Later t (missedDailySlot zone t now minutes) := by
  intro d last h hlast
  exact lt_of_firstMissed h hlast

theorem lt_of_toCome {zone : Zone} {reading : Int} (h : ToCome zone reading last) :
    last.micros < zone.ofWall reading := by
  by_contra hnot
  have hshown := h.1 _ (not_lt.mp hnot)
  exact absurd h.2 (not_le.mpr hshown)

theorem movesOn_iff (location : Option Zone) (minutes : Int) (base last : DateTime) :
    MovesOn env location minutes base last ↔
      last.micros < (slotAfter env location minutes base).micros := by
  cases location with
  | none =>
    show last.micros - (atTimeOfDay env.system base minutes).micros < dayMicros ↔
      last.micros < (atTimeOfDay env.system base minutes).micros + dayMicros
    omega
  | some zone =>
    unfold MovesOn
    dsimp only
    split_ifs with hsame
    · show last.micros < (zone.dateTime base.dayNumber _ _).micros ↔
        last.micros < (zone.dateTime (base.add dayMicros).dayNumber _ _).micros
      rw [hsame]
    · constructor
      · intro h
        by_cases hcome : ToCome zone (slotReading (base.add dayMicros).dayNumber minutes) last
        · exact lt_of_toCome hcome
        · exact h hcome
      · exact fun h _ => h

theorem later_nextDaily_iff (hlast : t.lastScheduledAt = some last) (location : Option Zone)
    {minutes : Int} (hminutes : t.schedule.timeOfDayMinutes = some minutes) :
    Later t (nextDaily env t now location) ↔
      let base := inLocation location (t.effectiveBase now)
      CatchesUp t (missedDailySlot (slotZone env location) t (inLocation location now) minutes) ∨
        base.micros ≤ (slotOn env location minutes base).micros ∨
        MovesOn env location minutes base last ∨
        t.withinEnd (slotAfter env location minutes base) = false := by
  rw [nextDaily_eq env t now location hminutes, later_orMissed_iff later_missedDailySlot]
  simp only [movesOn_iff]
  apply or_congr_right
  have hbase : last.micros < (inLocation location (t.effectiveBase now)).micros := by
    rw [micros_inLocation]
    exact lt_effectiveBase hlast now
  split
  · rename_i hbefore
    have hlt : (slotOn env location minutes (inLocation location (t.effectiveBase now))).micros <
        (inLocation location (t.effectiveBase now)).micros := by
      simpa [DateTime.isBefore] using hbefore
    rw [later_bounded_iff hlast]
    constructor
    · exact Or.inr
    · rintro (h | h)
      · omega
      · exact h
  · rename_i hbefore
    have hle : (inLocation location (t.effectiveBase now)).micros ≤
        (slotOn env location minutes (inLocation location (t.effectiveBase now))).micros := by
      simpa [DateTime.isBefore] using hbefore
    refine iff_of_true ?_ (Or.inl hle)
    exact (later_bounded_iff hlast).mpr (Or.inl (by omega))

theorem later_nextWeekly (location : Option Zone) : Later t (nextWeekly env t now location) := by
  rw [nextWeekly]
  split
  · exact later_none t
  · split
    · exact later_none t
    · cases location with
      | some location => exact later_search now rfl
      | none => exact later_search now rfl

theorem later_nextMonthly (location : Option Zone) : Later t (nextMonthly env t now location) := by
  rw [nextMonthly]
  split
  · cases location with
    | some location => exact later_search now rfl
    | none => exact later_search now rfl
  · exact later_none t

/-! ## The next run -/

/-- Whether an answer of the calculator is after the last slot. -/
def NextRunLater (env : ScheduleEnv) (t : Trigger) (now : DateTime) : Prop :=
  ∀ d last, nextRun env t now = .ok (some d) → t.lastScheduledAt = some last →
    last.micros < d.micros

theorem nextRunLater_iff (env : ScheduleEnv) (t : Trigger) (now : DateTime) :
    NextRunLater env t now ↔ Progresses env t now := by
  -- Without a last slot, or with an answer that is no date, both sides are empty.
  cases hlast : t.lastScheduledAt with
  | none => simp [NextRunLater, Progresses, hlast]
  | some last =>
  cases hlocation : resolveLocation env t with
  | error failure =>
    refine iff_of_true ?_ (by simp [Progresses, hlocation])
    intro d last h
    rw [nextRun, hlocation] at h
    split at h <;> cases h
  | ok location =>
  have hiff : ∀ answer, nextRun env t now = .ok answer →
      (NextRunLater env t now ↔ Later t answer) := by
    intro answer hanswer
    simp [NextRunLater, Later, hanswer]
  cases htype : t.type with
  | interval =>
    rw [hiff (nextInterval t now) (by simp [nextRun, Trigger.isTemporalTrigger, htype, hlocation])]
    simp only [Progresses, htype, hlast, hlocation, Option.some.injEq, Except.ok.injEq]
    cases hinterval : t.schedule.interval with
    | none => simp [nextInterval, hinterval, later_none]
    | some interval =>
      by_cases hpos : 0 < interval
      · rw [later_nextInterval_iff hlast hinterval hpos]
        simp [hpos]
      · have hnone : nextInterval t now = none := by
          rw [nextInterval, hinterval]
          dsimp only
          rw [if_pos (by omega)]
        simp [hnone, hpos, later_none]
  | daily =>
    rw [hiff (nextDaily env t now location)
      (by simp [nextRun, Trigger.isTemporalTrigger, htype, hlocation])]
    simp only [Progresses, htype, hlast, hlocation, Option.some.injEq, Except.ok.injEq]
    cases hminutes : t.schedule.timeOfDayMinutes with
    | none => simp [nextDaily, hminutes, later_none]
    | some minutes =>
      rw [later_nextDaily_iff hlast location hminutes]
      simp
  | weekly =>
    rw [hiff (nextWeekly env t now location)
      (by simp [nextRun, Trigger.isTemporalTrigger, htype, hlocation])]
    exact iff_of_true (later_nextWeekly location) (by simp [Progresses, htype])
  | monthly =>
    rw [hiff (nextMonthly env t now location)
      (by simp [nextRun, Trigger.isTemporalTrigger, htype, hlocation])]
    exact iff_of_true (later_nextMonthly location) (by simp [Progresses, htype])
  | once =>
    rw [hiff (nextOnce t now) (by simp [nextRun, Trigger.isTemporalTrigger, htype, hlocation])]
    exact iff_of_true (later_nextOnce t now) (by simp [Progresses, htype])
  | manual | remote | appStart | appClose | actionSucceeded | actionFailed =>
    refine iff_of_true ?_ (by simp [Progresses, htype])
    intro d last h
    simp [nextRun, Trigger.isTemporalTrigger, htype] at h

/-! ## The reschedule loop -/

/-- The schedule progresses at every turn of the reschedule loop. -/
def ProgressesAlong (env : ScheduleEnv) : Trigger → List (DateTime × DateTime) → Prop
  | _, [] => True
  | t, (now₁, now₂) :: rest =>
    Progresses env (effectiveTrigger t now₁) now₂ ∧
      ∀ slot, nextRun env (effectiveTrigger t now₁) now₂ = .ok (some slot) →
        ProgressesAlong env { effectiveTrigger t now₁ with lastScheduledAt := some slot } rest

theorem lastScheduledAt_effectiveTrigger (t : Trigger) (now : DateTime) :
    (effectiveTrigger t now).lastScheduledAt = t.lastScheduledAt := by
  rw [effectiveTrigger]
  split <;> rfl

/-- The slots of a loop that progresses are after the last slot before it, and
each is after the one before. -/
theorem dispatchLoop_increasing (env : ScheduleEnv) (readings : List (DateTime × DateTime)) :
    ∀ t : Trigger, ProgressesAlong env t readings →
      (∀ slot ∈ dispatchLoop env t readings, ∀ last, t.lastScheduledAt = some last →
          last.micros < slot.micros) ∧
        (dispatchLoop env t readings).Pairwise fun a b => a.micros < b.micros := by
  induction readings with
  | nil =>
    intro t _
    simp [dispatchLoop]
  | cons reading rest ih =>
    intro t halong
    obtain ⟨now₁, now₂⟩ := reading
    obtain ⟨hprogress, hrest⟩ := halong
    rw [dispatchLoop]
    split
    · rename_i slot hslot
      obtain ⟨hafter, hpairwise⟩ := ih _ (hrest slot hslot)
      have hfirst : ∀ last, t.lastScheduledAt = some last → last.micros < slot.micros := by
        intro last hlast
        rw [← lastScheduledAt_effectiveTrigger t now₁] at hlast
        exact (nextRunLater_iff env _ now₂).mpr hprogress slot last hslot hlast
      constructor
      · intro d hd last hlast
        rcases List.mem_cons.mp hd with rfl | hd
        · exact hfirst last hlast
        · exact lt_trans (hfirst last hlast) (hafter d hd slot rfl)
      · rw [List.pairwise_cons]
        exact ⟨fun d hd => hafter d hd slot rfl, hpairwise⟩
    · simp

/-- The next run is after the last one exactly when the schedule progresses, and a
reschedule loop that progresses at every turn dispatches no slot twice. -/
theorem schedule_progress (env : ScheduleEnv) (t : Trigger) :
    (∀ now, NextRunLater env t now ↔ Progresses env t now) ∧
      ∀ readings, ProgressesAlong env t readings →
        (dispatchLoop env t readings).Pairwise fun a b => a.micros < b.micros :=
  ⟨nextRunLater_iff env t,
    fun readings halong => (dispatchLoop_increasing env readings t halong).2⟩

/-- A wall clock that shows the time of UTC. -/
def utc : Zone where
  offset _ := 0
  ofWall w := w

/-- An offset of two hours until 2026-10-25 01:00 UTC and of one hour from then
on.  A reading that comes twice is taken for the first time. -/
def autumn : Zone where
  offset t := if t < 20751 * dayMicros + hourMicros then 2 * hourMicros else hourMicros
  ofWall w :=
    if w - 2 * hourMicros < 20751 * dayMicros + hourMicros then w - 2 * hourMicros
    else w - hourMicros

/-- A daily trigger at 00:30 that was last dispatched at 00:30 on 2026-10-25. -/
def halfPastMidnight (zone : Zone) : Trigger where
  id := "t"
  type := .daily
  schedule := { timeOfDayMinutes := some 30, timezoneId := some "zone" }
  lastScheduledAt := some (zone.dateTime 20751 0 30)

/-- In a zone without changes the trigger goes on to the next day. -/
theorem schedule_progress_utc :
    Progresses ⟨utc, fun _ => some utc⟩ (halfPastMidnight utc) (utc.dateTime 20751 0 30) ∧
      NextRunLater ⟨utc, fun _ => some utc⟩ (halfPastMidnight utc) (utc.dateTime 20751 0 30) := by
  have hprogress : Progresses ⟨utc, fun _ => some utc⟩ (halfPastMidnight utc)
      (utc.dateTime 20751 0 30) := by
    intro last location hlast hlocation minutes hminutes
    cases hlast
    cases hminutes
    have hloc : location = some utc := by
      have : resolveLocation ⟨utc, fun _ => some utc⟩ (halfPastMidnight utc) = .ok (some utc) := rfl
      rw [this] at hlocation
      exact (Except.ok.inj hlocation).symm
    subst hloc
    right; right; left
    unfold MovesOn
    dsimp only
    rw [if_neg (by decide)]
    intro _
    decide
  exact ⟨hprogress, ((schedule_progress _ _).1 _).mpr hprogress⟩

/-- On the day of 25 hours the trigger answers the slot it was last dispatched
at. -/
theorem daily_repeats_slot :
    nextRun ⟨utc, fun _ => some autumn⟩ (halfPastMidnight autumn) (autumn.dateTime 20751 0 30) =
        .ok (some (autumn.dateTime 20751 0 30)) ∧
      ¬NextRunLater ⟨utc, fun _ => some autumn⟩ (halfPastMidnight autumn)
        (autumn.dateTime 20751 0 30) := by
  have hnext : nextRun ⟨utc, fun _ => some autumn⟩ (halfPastMidnight autumn)
      (autumn.dateTime 20751 0 30) = .ok (some (autumn.dateTime 20751 0 30)) := by
    rfl
  refine ⟨hnext, ?_⟩
  intro h
  exact absurd (h _ _ hnext rfl) (lt_irrefl _)

end PlugAgente.Schedule
