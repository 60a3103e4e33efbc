import Mathlib.Order.Bounds.Basic
import PlugAgente.Schedule.Progress

/-!
# The grid of an interval trigger

An interval trigger runs at instants of the form `anchor + k * interval`.  `AnswersGrid` says
that the next run is the least of them that is not before `now` and is after `lastScheduledAt`.
The calculator takes one step past the first boundary, and none past an anchor in the future;
`interval_grid` says when this is enough.
-/

namespace PlugAgente.Schedule

/-! ## Grids -/

/-- The instants of a grid from a floor on. -/
def gridFrom (anchor interval floor : Int) : Set Int :=
  {x | (∃ k : Nat, x = anchor + k * interval) ∧ floor ≤ x}

section Grid

variable {anchor interval floor : Int}

/-- An instant of the grid is the least one from a floor on when the one before it is below the
floor, or there is none before it. -/
theorem isLeast_grid {k : Nat} (hpos : 0 < interval) (hfloor : floor ≤ anchor + k * interval)
    (hgap : k = 0 ∨ anchor + k * interval - interval < floor) :
    IsLeast (gridFrom anchor interval floor) (anchor + k * interval) := by
  refine ⟨⟨⟨k, rfl⟩, hfloor⟩, ?_⟩
  rintro y ⟨⟨j, rfl⟩, hj⟩
  rcases le_or_gt k j with hle | hlt
  · have : (k : Int) * interval ≤ j * interval :=
      Int.mul_le_mul_of_nonneg_right (by omega) hpos.le
    omega
  · have hstep : ((j : Int) + 1) * interval ≤ k * interval :=
      Int.mul_le_mul_of_nonneg_right (by omega) hpos.le
    rw [Int.add_mul] at hstep
    omega

theorem exists_isLeast_grid (anchor floor : Int) (hpos : 0 < interval) :
    ∃ x, IsLeast (gridFrom anchor interval floor) x := by
  have hreach : ∃ k : Nat, floor ≤ anchor + k * interval := by
    refine ⟨(floor - anchor).toNat, ?_⟩
    have hmul : ((floor - anchor).toNat : Int) * 1 ≤ (floor - anchor).toNat * interval :=
      Int.mul_le_mul_of_nonneg_left (by omega) (by omega)
    omega
  refine ⟨_, isLeast_grid hpos (Nat.find_spec hreach) ?_⟩
  rcases Nat.eq_zero_or_pos (Nat.find hreach) with hzero | hk
  · exact .inl hzero
  · right
    have hbefore := Nat.find_min hreach (Nat.sub_lt hk one_pos)
    have hcast : ((Nat.find hreach - 1 : Nat) : Int) = Nat.find hreach - 1 := by omega
    rw [hcast, Int.sub_mul] at hbefore
    omega

end Grid

/-! ## What the next run is to be -/

/-- Not before `now`, and after `lastScheduledAt`. -/
def slotFloor (now : Int) : Option Int → Int
  | some last => max now (last + 1)
  | none => now

/-- The slots of an interval trigger that are still to come. -/
def slotsToCome (anchor interval now : Int) (last : Option Int) : Set Int :=
  gridFrom anchor interval (slotFloor now last)

theorem mem_slotsToCome {anchor interval now x : Int} {last : Option Int} :
    x ∈ slotsToCome anchor interval now last ↔
      (∃ k : Nat, x = anchor + k * interval) ∧ now ≤ x ∧ ∀ l, last = some l → l < x := by
  unfold slotsToCome gridFrom
  cases last with
  | none => simp [slotFloor]
  | some l => simp [slotFloor]

/-- The next run is the least slot to come, or there is none since that slot is after the end. -/
def AnswersGrid (t : Trigger) (anchor now : DateTime) (interval : Int) (next : Option DateTime) :
    Prop :=
  ∃ slot, IsLeast (slotsToCome anchor.micros interval now.micros
      (t.lastScheduledAt.map DateTime.micros)) slot ∧
    match next with
    | some d => d.micros = slot
    | none => ∃ endAt, t.schedule.endAt = some endAt ∧ endAt.micros < slot

/-- The last slot that the calculator can come to is after `lastScheduledAt`, or it is after the
end. -/
def WithinReach (t : Trigger) (now : DateTime) (interval : Int) : Prop :=
  ∀ last, t.lastScheduledAt = some last →
    last.micros < (intervalBound t now interval).micros ∨
      t.withinEnd (intervalBound t now interval) = false

section Interval

variable {t : Trigger} {anchor now d : DateTime} {interval : Int}

theorem withinEnd_eq_false_iff :
    t.withinEnd d = false ↔ ∃ endAt, t.schedule.endAt = some endAt ∧ endAt.micros < d.micros := by
  unfold Trigger.withinEnd DateTime.isAfter
  cases t.schedule.endAt <;> simp

theorem answersGrid_bounded (h : IsLeast (slotsToCome anchor.micros interval now.micros
    (t.lastScheduledAt.map DateTime.micros)) d.micros) :
    AnswersGrid t anchor now interval (t.bounded d) := by
  refine ⟨d.micros, h, ?_⟩
  unfold Trigger.bounded
  split
  · rename_i heq
    split at heq
    · rw [Option.some.inj heq]
    · cases heq
  · rename_i heq
    split at heq
    · cases heq
    · rename_i hend
      exact withinEnd_eq_false_iff.mp (by simpa using hend)

theorem answersGrid_bounded_stale (hpos : 0 < interval) {last : DateTime}
    (hlast : t.lastScheduledAt = some last) (hstale : d.micros ≤ last.micros) :
    AnswersGrid t anchor now interval (t.bounded d) ↔ t.withinEnd d = false := by
  have hafter : ∀ slot, IsLeast (slotsToCome anchor.micros interval now.micros
      (t.lastScheduledAt.map DateTime.micros)) slot → last.micros < slot := by
    intro slot hslot
    exact (mem_slotsToCome.mp hslot.1).2.2 last.micros (by rw [hlast]; rfl)
  constructor
  · rintro ⟨slot, hslot, hnext⟩
    have hlt := hafter slot hslot
    by_contra hend
    have hbounded : t.bounded d = some d := if_pos (by simpa using hend)
    rw [hbounded] at hnext
    dsimp only at hnext
    omega
  · intro hend
    obtain ⟨slot, hslot⟩ := exists_isLeast_grid anchor.micros
      (slotFloor now.micros (t.lastScheduledAt.map DateTime.micros)) hpos
    have hlt := hafter slot hslot
    obtain ⟨endAt, hendAt, hbefore⟩ := withinEnd_eq_false_iff.mp hend
    have hbounded : t.bounded d = none := if_neg (by simp [hend])
    rw [hbounded]
    exact ⟨slot, hslot, endAt, hendAt, by omega⟩

theorem nextStep_bounds (elapsed : Int) (hpos : 0 < interval) :
    elapsed ≤ interval * nextStep elapsed interval ∧
      interval * nextStep elapsed interval - interval < elapsed := by
  have hdiv := Int.mul_ediv_add_emod elapsed interval
  have hlt := Int.emod_lt_of_pos elapsed hpos
  have hnonneg := Int.emod_nonneg elapsed hpos.ne'
  unfold nextStep
  split
  · omega
  · rw [Int.mul_add]
    omega

theorem answersGrid_step (hpos : 0 < interval) {step : Int} (hstep : 0 ≤ step)
    (hfloor : slotFloor now.micros (t.lastScheduledAt.map DateTime.micros) ≤
      anchor.micros + interval * step)
    (hgap : step = 0 ∨ anchor.micros + interval * step - interval <
      slotFloor now.micros (t.lastScheduledAt.map DateTime.micros)) :
    AnswersGrid t anchor now interval (t.bounded (anchor.add (interval * step))) := by
  have hcast : ((step.toNat : Nat) : Int) * interval = interval * step := by
    rw [Int.toNat_of_nonneg hstep, Int.mul_comm]
  have hleast : IsLeast (slotsToCome anchor.micros interval now.micros
      (t.lastScheduledAt.map DateTime.micros)) (anchor.micros + step.toNat * interval) :=
    isLeast_grid hpos (by rwa [hcast]) (hgap.imp (by omega) fun hbefore => by rwa [hcast])
  rw [hcast] at hleast
  exact answersGrid_bounded hleast

theorem answersGrid_step_iff (hpos : 0 < interval) {step : Int} (hstep : 0 ≤ step)
    (hnow : now.micros ≤ anchor.micros + interval * step)
    (hgap : step = 0 ∨ anchor.micros + interval * step - interval <
      slotFloor now.micros (t.lastScheduledAt.map DateTime.micros)) :
    AnswersGrid t anchor now interval (t.bounded (anchor.add (interval * step))) ↔
      ∀ last, t.lastScheduledAt = some last →
        last.micros < (anchor.add (interval * step)).micros ∨
          t.withinEnd (anchor.add (interval * step)) = false := by
  cases hlast : t.lastScheduledAt with
  | none =>
    refine iff_of_true (answersGrid_step hpos hstep ?_ hgap) (by simp)
    rw [hlast]
    exact hnow
  | some last =>
    simp only [Option.some.injEq, forall_eq']
    by_cases hstale : (anchor.add (interval * step)).micros ≤ last.micros
    · rw [answersGrid_bounded_stale hpos hlast hstale, or_iff_right (not_lt.mpr hstale)]
    · rw [not_le] at hstale
      refine iff_of_true (answersGrid_step hpos hstep ?_ hgap) (.inl hstale)
      rw [hlast]
      simp only [DateTime.add] at hstale
      simp only [Option.map_some, slotFloor]
      omega

theorem notAfterLast_iff : notAfterLast t d = true ↔
    ∃ last, t.lastScheduledAt = some last ∧ d.micros ≤ last.micros := by
  unfold notAfterLast DateTime.isAfter
  cases t.lastScheduledAt <;> simp

theorem slotFloor_le (h : notAfterLast t d = false) (hnow : now.micros ≤ d.micros) :
    slotFloor now.micros (t.lastScheduledAt.map DateTime.micros) ≤ d.micros := by
  unfold notAfterLast DateTime.isAfter at h
  cases hlast : t.lastScheduledAt with
  | none => exact hnow
  | some last =>
    rw [hlast] at h
    simp only [Bool.not_eq_false', decide_eq_true_eq] at h
    simp only [Option.map_some, slotFloor]
    omega

theorem lt_slotFloor (now : DateTime) {last : DateTime} (hlast : t.lastScheduledAt = some last)
    {x : Int} (h : x ≤ last.micros) :
    x < slotFloor now.micros (t.lastScheduledAt.map DateTime.micros) := by
  rw [hlast]
  simp only [Option.map_some, slotFloor]
  omega

theorem le_slotFloor (t : Trigger) (now : DateTime) :
    now.micros ≤ slotFloor now.micros (t.lastScheduledAt.map DateTime.micros) := by
  cases t.lastScheduledAt with
  | none => exact le_refl _
  | some last => exact le_max_left _ _

theorem nextInterval_future_iff (hpos : 0 < interval) (hfuture : now.micros < anchor.micros) :
    AnswersGrid t anchor now interval (t.bounded anchor) ↔
      ∀ last, t.lastScheduledAt = some last →
        last.micros < anchor.micros ∨ t.withinEnd anchor = false := by
  have hfirst : anchor.add (interval * 0) = anchor := by simp [DateTime.add]
  have hnow : now.micros ≤ anchor.micros + interval * 0 := by omega
  have hiff := answersGrid_step_iff (t := t) hpos (le_refl 0) hnow (.inl rfl)
  rwa [hfirst] at hiff

theorem nextInterval_answersGrid_iff (hinterval : t.schedule.interval = some interval)
    (hpos : 0 < interval) (hignore : t.schedule.ignoreMissedRuns = true)
    (hanchor : intervalAnchor t now = anchor) :
    AnswersGrid t anchor now interval (nextInterval t now) ↔ WithinReach t now interval := by
  unfold nextInterval WithinReach intervalBound
  rw [hinterval]
  dsimp only
  rw [if_neg (by omega), hanchor, hignore]
  by_cases hfuture : anchor.isAfter now = true
  · rw [if_pos hfuture, if_pos hfuture]
    exact nextInterval_future_iff hpos (by simpa [DateTime.isAfter] using hfuture)
  · have hpast : anchor.micros ≤ now.micros := by simpa [DateTime.isAfter] using hfuture
    rw [if_neg hfuture, if_neg hfuture, if_neg (by simp)]
    have hbounds := nextStep_bounds (now.micros - anchor.micros) hpos
    have hstep : 0 ≤ nextStep (now.micros - anchor.micros) interval :=
      le_trans (Int.ediv_nonneg (by omega) hpos.le) le_nextStep
    generalize nextStep (now.micros - anchor.micros) interval = step at hbounds hstep
    have hmul : interval * (step + 1) = interval * step + interval := by rw [Int.mul_add]; omega
    have hnow : now.micros ≤ (anchor.add (interval * step)).micros := by
      simp only [DateTime.add]
      omega
    by_cases hnext : notAfterLast t (anchor.add (interval * step)) = true
    · obtain ⟨last, hlast, hle⟩ := notAfterLast_iff.mp hnext
      simp only [DateTime.add] at hle
      rw [if_pos hnext]
      refine answersGrid_step_iff hpos (by omega) (by omega) (.inr ?_)
      have := lt_slotFloor now hlast hle
      omega
    · rw [if_neg hnext]
      refine iff_of_true ?_ ?_
      · refine answersGrid_step hpos hstep (slotFloor_le (by simpa using hnext) hnow) (.inr ?_)
        have := le_slotFloor t now
        omega
      · intro last hlast
        rw [notAfterLast_iff] at hnext
        left
        by_contra hstale
        refine hnext ⟨last, hlast, ?_⟩
        simp only [DateTime.add] at hstale ⊢
        omega

end Interval

/-! ## The schedule of an interval trigger -/

/-- An interval trigger that ignores missed runs, with its anchor. -/
structure IntervalTrigger (t : Trigger) (anchor : DateTime) (interval : Int) : Prop where
  temporal : t.type = .interval
  every : t.schedule.interval = some interval
  pos : 0 < interval
  ignores : t.schedule.ignoreMissedRuns = true
  anchored : (t.schedule.startAt <|> t.createdAt) = some anchor

/-- Each slot is the least one to come when it is computed, after the slot before it. -/
def VisitsGrid (anchor interval : Int) : Option Int → List DateTime → List DateTime → Prop
  | _, _, [] => True
  | _, [], _ :: _ => False
  | last, now :: rest, slot :: slots =>
    IsLeast (slotsToCome anchor interval now.micros last) slot.micros ∧
      VisitsGrid anchor interval (some slot.micros) rest slots

section Schedule

variable {env : ScheduleEnv} {t : Trigger} {anchor now : DateTime} {interval : Int}
  {next : Option DateTime}

theorem IntervalTrigger.anchor_eq (h : IntervalTrigger t anchor interval) (now : DateTime) :
    intervalAnchor t now = anchor := by
  unfold intervalAnchor
  rw [h.anchored]
  rfl

theorem IntervalTrigger.nextRun_ok (h : IntervalTrigger t anchor interval)
    (hrun : nextRun env t now = .ok next) :
    next = nextInterval t now ∧ ∃ location, resolveLocation env t = .ok location := by
  simp only [nextRun, Trigger.isTemporalTrigger, h.temporal] at hrun
  cases hlocation : resolveLocation env t with
  | error failure =>
    rw [hlocation] at hrun
    cases hrun
  | ok location =>
    rw [hlocation] at hrun
    exact ⟨(Except.ok.inj hrun).symm, location, rfl⟩

theorem IntervalTrigger.progresses_iff (h : IntervalTrigger t anchor interval)
    {location : Option Zone} (hlocation : resolveLocation env t = .ok location) :
    Progresses env t now ↔ WithinReach t now interval := by
  simp only [Progresses, WithinReach, h.temporal, h.every, hlocation, Option.some.injEq,
    Except.ok.injEq, forall_eq', h.pos, true_imp_iff]
  exact ⟨fun hreach last hlast => hreach last location hlast rfl,
    fun hreach last _ hlast _ => hreach last hlast⟩

theorem IntervalTrigger.answersGrid_iff (h : IntervalTrigger t anchor interval)
    (hrun : nextRun env t now = .ok next) :
    AnswersGrid t anchor now interval next ↔ Progresses env t now := by
  obtain ⟨rfl, location, hlocation⟩ := h.nextRun_ok hrun
  rw [h.progresses_iff hlocation]
  exact nextInterval_answersGrid_iff h.every h.pos h.ignores (h.anchor_eq now)

theorem IntervalTrigger.effective (h : IntervalTrigger t anchor interval) (now : DateTime) :
    IntervalTrigger (effectiveTrigger t now) anchor interval := by
  have hanchor := h.anchored
  unfold effectiveTrigger
  split
  · rename_i hnone
    have hstart : t.schedule.startAt = none := by
      rw [Bool.and_eq_true, Option.isNone_iff_eq_none] at hnone
      exact hnone.2
    have hcreated : t.createdAt = some anchor := by simpa [hstart] using hanchor
    exact ⟨h.temporal, h.every, h.pos, h.ignores, by rw [hcreated]; rfl⟩
  · exact h

theorem IntervalTrigger.dispatched (h : IntervalTrigger t anchor interval) (slot : DateTime) :
    IntervalTrigger { t with lastScheduledAt := some slot } anchor interval :=
  ⟨h.temporal, h.every, h.pos, h.ignores, h.anchored⟩

theorem dispatchLoop_visitsGrid (readings : List (DateTime × DateTime)) :
    ∀ t : Trigger, IntervalTrigger t anchor interval → ProgressesAlong env t readings →
      VisitsGrid anchor.micros interval (t.lastScheduledAt.map DateTime.micros)
        (readings.map Prod.snd) (dispatchLoop env t readings) := by
  induction readings with
  | nil =>
    intro t _ _
    exact trivial
  | cons reading rest ih =>
    intro t h halong
    obtain ⟨now₁, now₂⟩ := reading
    obtain ⟨hprogress, hrest⟩ := halong
    rw [dispatchLoop]
    split
    · rename_i slot hslot
      have heffective := h.effective now₁
      have hanswers := (heffective.answersGrid_iff hslot).mpr hprogress
      obtain ⟨x, hx, rfl⟩ := hanswers
      rw [lastScheduledAt_effectiveTrigger] at hx
      exact ⟨hx, ih _ (heffective.dispatched slot) (hrest slot hslot)⟩
    · exact trivial

/-- The next run of an interval trigger answers the grid exactly when the schedule progresses, and
a reschedule loop that progresses at every turn visits the grid. -/
theorem interval_grid (env : ScheduleEnv) (t : Trigger) (anchor : DateTime) (interval : Int)
    (h : IntervalTrigger t anchor interval) :
    (∀ now next, nextRun env t now = .ok next →
      (AnswersGrid t anchor now interval next ↔ Progresses env t now)) ∧
    ∀ readings, ProgressesAlong env t readings →
      VisitsGrid anchor.micros interval (t.lastScheduledAt.map DateTime.micros)
        (readings.map Prod.snd) (dispatchLoop env t readings) :=
  ⟨fun _ _ hrun => h.answersGrid_iff hrun, fun readings halong =>
    dispatchLoop_visitsGrid readings t h halong⟩

end Schedule

/-- A trigger with a slot every ten microseconds from 0 on. -/
def everyTen (last : Int) : Trigger where
  id := "t"
  type := .interval
  schedule := { startAt := some ⟨0, utc⟩, interval := some 10 }
  lastScheduledAt := some ⟨last, utc⟩

theorem everyTen_interval (last : Int) : IntervalTrigger (everyTen last) ⟨0, utc⟩ 10 :=
  ⟨rfl, rfl, by decide, rfl, rfl⟩

/-- At 25, after the slot at 20, the next run is at 30. -/
theorem interval_grid_everyTen :
    nextRun ⟨utc, fun _ => none⟩ (everyTen 20) ⟨25, utc⟩ = .ok (some ⟨30, utc⟩) ∧
      AnswersGrid (everyTen 20) ⟨0, utc⟩ ⟨25, utc⟩ 10 (some ⟨30, utc⟩) := by
  have hrun : nextRun ⟨utc, fun _ => none⟩ (everyTen 20) ⟨25, utc⟩ = .ok (some ⟨30, utc⟩) := rfl
  refine ⟨hrun, ((interval_grid _ _ _ _ (everyTen_interval 20)).1 _ _ hrun).mpr ?_⟩
  intro last location hlast _ interval hinterval _
  cases hlast
  cases hinterval
  left
  decide

/-- A clock that is set back to 0 after the slot at 100 brings the slot at 10 once more. -/
theorem everyTen_set_back : ∃ next,
    nextRun ⟨utc, fun _ => none⟩ (everyTen 100) ⟨0, utc⟩ = .ok next ∧
      ¬ AnswersGrid (everyTen 100) ⟨0, utc⟩ ⟨0, utc⟩ 10 next := by
  refine ⟨some ⟨10, utc⟩, rfl, ?_⟩
  rintro ⟨slot, hslot, hnext⟩
  have hafter := (mem_slotsToCome.mp hslot.1).2.2 100 rfl
  change (10 : Int) = slot at hnext
  omega

end PlugAgente.Schedule
