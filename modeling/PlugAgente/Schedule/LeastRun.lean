import PlugAgente.Schedule.Calendar
import PlugAgente.Schedule.Progress

/-!
# The least next run

The next run of a daily, weekly or monthly trigger is looked for day by day, from the day of
the base on.  `FirstDay` is the day that the search is for: the first day of the trigger from
the day of the base on whose slot, the instant that the zone builds for the configured time, is
not before the base.  In a zone whose constructor is `Lawful` there is always one.

The searches step by 24 hours or by months and read the date of the result back.  `StepsTo`
says that up to the first day this leads to the dates that are meant; where the wall clock is
changed it may not.  Where the clock is `Regular`, which is that it neither skips nor repeats
the configured time up to the slot of the first day, this slot is the least instant at which
the trigger may run.
-/

namespace PlugAgente.Schedule

/-! ## Slots and days -/

namespace Zone

/-- The reading of the wall clock at an instant. -/
def wallAt (zone : Zone) (x : Int) : Int :=
  x + zone.offset x

/-- The day of the wall clock at an instant. -/
def dayAt (zone : Zone) (x : Int) : Int :=
  zone.wallAt x / dayMicros

/-- The instant that the zone builds for the configured time of a day. -/
def slot (zone : Zone) (minutes n : Int) : Int :=
  zone.ofWall (n * dayMicros + minutes * minuteMicros)

/-- The offsets of a zone are less than a day. -/
def Bounded (zone : Zone) : Prop :=
  ∀ x, -dayMicros < zone.offset x ∧ zone.offset x < dayMicros

/-- The constructor of a zone takes a reading for an instant that shows it, if there is one,
and in any case moves it by one of the offsets, which are less than a day. -/
structure Lawful (zone : Zone) : Prop where
  bounded : zone.Bounded
  shown : ∀ x, zone.wallAt (zone.ofWall (zone.wallAt x)) = zone.wallAt x
  moved : ∀ w, ∃ x, zone.ofWall w = w - zone.offset x

/-- The wall clock shows the configured time on a day. -/
def Shows (zone : Zone) (minutes n : Int) : Prop :=
  ∃ x, zone.wallAt x = n * dayMicros + minutes * minuteMicros

/-- No earlier instant shows a later date than an instant, and no later one an earlier date. -/
def Settled (zone : Zone) (x : Int) : Prop :=
  (∀ y ≤ x, zone.dayAt y ≤ zone.dayAt x) ∧ ∀ y, x ≤ y → zone.dayAt x ≤ zone.dayAt y

end Zone

namespace Trigger

variable (t : Trigger)

/-- The days of a trigger; a month that does not have the day is left out. -/
def onDay (n : Int) : Bool :=
  match t.type with
  | .daily => true
  | .weekly => decide ((n + 3) % 7 + 1 ∈ t.schedule.weekdays)
  | .monthly => decide (some (civilOfDay n).day = t.schedule.dayOfMonth)
  | _ => false

/-- The instant is on a day of the trigger, at the configured time. -/
def Due (zone : Zone) (minutes x : Int) : Prop :=
  t.onDay (zone.dayAt x) = true ∧ zone.wallAt x % dayMicros = minutes * minuteMicros

/-- The instants at which the trigger may run next. -/
def MayRun (zone : Zone) (minutes : Int) (now : DateTime) (x : Int) : Prop :=
  now.micros ≤ x ∧ (∀ startAt, t.schedule.startAt = some startAt → startAt.micros ≤ x) ∧
    (∀ last, t.lastScheduledAt = some last → last.micros < x) ∧ t.Due zone minutes x

/-- The first day of the trigger, from that of the base on, whose slot is not before the
base. -/
structure FirstDay (zone : Zone) (minutes b n : Int) : Prop where
  onDay : t.onDay n = true
  from_base : zone.dayAt b ≤ n
  slot : b ≤ zone.slot minutes n
  first : ∀ m, t.onDay m = true → zone.dayAt b ≤ m → m < n → zone.slot minutes m < b

/-- The day from which on a search looks: the first of its month, or the day itself. -/
def searchFrom (day : Int) : Int :=
  if t.type = .monthly then monthStart (civilOfDay day).monthIndex else day

/-- Up to the slot of the day `n`, the wall clock neither skips nor repeats the configured time
of a day of the trigger, and it is not set back over midnight at the base or at the slot. -/
structure Regular (zone : Zone) (minutes b n : Int) : Prop where
  shown : ∀ m, t.onDay m = true → t.searchFrom (zone.dayAt b) ≤ m → m ≤ n →
    zone.Shows minutes m
  once : ∀ m, t.onDay m = true → zone.dayAt b ≤ m → m ≤ n → ∀ x, b ≤ x →
    x ≤ zone.slot minutes n → zone.wallAt x = m * dayMicros + minutes * minuteMicros →
    x = zone.slot minutes m
  base : zone.Settled b
  slot : zone.Settled (zone.slot minutes n)

/-- The dates that a monthly search reads back: the first and the last of a month, and the day
of the trigger. -/
def ReadBack (n : Int) : Prop :=
  (civilOfDay n).day = 1 ∨ (civilOfDay (n + 1)).day = 1 ∨ t.onDay n = true

/-- The steps of the search up to the day `n` lead to the dates that are meant: 24 hours on
from the base or from its slot, whole days on from midnight, or months on from the first. -/
def StepsTo (env : ScheduleEnv) (location : Option Zone) (minutes b n : Int) : Prop :=
  let zone := slotZone env location
  match t.type with
  | .daily =>
    zone.dayAt b < n →
      match location with
      | some location => location.dayAt (b + dayMicros) = n
      | none => zone.slot minutes (zone.dayAt b) + dayMicros = zone.slot minutes n
  | .weekly =>
    ∀ k : Nat, zone.dayAt b + k ≤ n →
      zone.dayAt (zone.ofWall (zone.dayAt b * dayMicros) + k * dayMicros) = zone.dayAt b + k
  | .monthly =>
    ∀ m, t.searchFrom (zone.dayAt b) ≤ m → m < monthStart ((civilOfDay n).monthIndex + 1) →
      t.ReadBack m → env.system.dayAt (env.system.ofWall (m * dayMicros)) = m
  | _ => True

/-- A daily trigger, a weekly one with a day of the week, or a monthly one with a day of the
month. -/
def IsCalendar : Prop :=
  t.type = .daily ∨
    (t.type = .weekly ∧ ∃ day ∈ t.schedule.weekdays, 1 ≤ day ∧ day ≤ 7) ∨
    (t.type = .monthly ∧ ∃ day, t.schedule.dayOfMonth = some day ∧ 1 ≤ day ∧ day ≤ 31)

end Trigger

variable {env : ScheduleEnv} {zone : Zone} {t : Trigger} {now base : DateTime}
  {minutes b n : Int}

theorem due_iff (h0 : 0 ≤ minutes) (h1 : minutes < 1440) {x : Int} :
    t.Due zone minutes x ↔ ∃ n, t.onDay n = true ∧
      zone.wallAt x = n * dayMicros + minutes * minuteMicros := by
  simp only [Trigger.Due, Zone.dayAt, dayMicros, minuteMicros]
  constructor
  · rintro ⟨hday, htime⟩
    exact ⟨_, hday, by omega⟩
  · rintro ⟨n, hday, hwall⟩
    have hn : zone.wallAt x / 86400000000 = n := by omega
    rw [hn]
    exact ⟨hday, by omega⟩

theorem dayAt_of_wallAt (h0 : 0 ≤ minutes) (h1 : minutes < 1440) {x : Int}
    (hwall : zone.wallAt x = n * dayMicros + minutes * minuteMicros) : zone.dayAt x = n := by
  rw [Zone.dayAt, hwall]
  simp only [dayMicros, minuteMicros]
  omega

theorem Zone.Lawful.wallAt_slot (hzone : zone.Lawful) (h : zone.Shows minutes n) :
    zone.wallAt (zone.slot minutes n) = n * dayMicros + minutes * minuteMicros := by
  obtain ⟨x, hx⟩ := h
  rw [Zone.slot, ← hx]
  exact hzone.shown x

theorem Zone.Lawful.dayAt_slot (hzone : zone.Lawful) (h0 : 0 ≤ minutes) (h1 : minutes < 1440)
    (h : zone.Shows minutes n) : zone.dayAt (zone.slot minutes n) = n :=
  dayAt_of_wallAt h0 h1 (hzone.wallAt_slot h)

/-- Three days on from that of the base every slot is after the base. -/
theorem Zone.Lawful.le_slot (hzone : zone.Lawful) (h0 : 0 ≤ minutes)
    (hlate : zone.dayAt b + 3 ≤ n) : b ≤ zone.slot minutes n := by
  obtain ⟨x, hx⟩ := hzone.moved (n * dayMicros + minutes * minuteMicros)
  obtain ⟨-, hoffset⟩ := hzone.bounded x
  obtain ⟨hbase, -⟩ := hzone.bounded b
  rw [Zone.slot, hx]
  simp only [Zone.dayAt, Zone.wallAt, dayMicros, minuteMicros] at *
  omega

/-! ## The first day -/

/-- How many days on from a day the next day of the trigger is at most. -/
def Trigger.searchAhead (t : Trigger) : Int :=
  match t.type with
  | .daily => 1
  | .weekly => 7
  | _ => 92

theorem exists_onDay (hcalendar : t.IsCalendar) (d : Int) :
    ∃ n, t.onDay n = true ∧ d < n ∧ n ≤ d + t.searchAhead := by
  rcases hcalendar with htype | ⟨htype, day, hmem, hlow, hhigh⟩ | ⟨htype, day, hof, hlow, hhigh⟩
  · refine ⟨d + 1, ?_, by omega, ?_⟩
    · rw [Trigger.onDay, htype]
    · rw [Trigger.searchAhead, htype]
  · refine ⟨d + ((day - 1 - (d + 4)) % 7 + 1), ?_, by omega, ?_⟩
    · have hmod : (d + ((day - 1 - (d + 4)) % 7 + 1) + 3) % 7 + 1 = day := by omega
      rw [Trigger.onDay, htype, hmod]
      exact decide_eq_true hmem
    · rw [Trigger.searchAhead, htype]
      dsimp only
      omega
  · obtain ⟨-, -, hstart, hday, hnext⟩ := civilOfDay_spec d
    obtain ⟨i, hi⟩ : ∃ i, i = (civilOfDay d).monthIndex := ⟨_, rfl⟩
    rw [← hi] at hstart hnext
    have hlength := monthLength_bounds i
    have hlength' := monthLength_bounds (i + 1)
    have hon : ∀ m, monthStart (m + 1) = monthStart m + 31 →
        t.onDay (monthStart m + (day - 1)) = true := by
      intro m hlong
      rw [Trigger.onDay, htype, hof, @civilDay_eq _ m (by omega) (by omega)]
      exact decide_eq_true (congrArg some (by omega))
    rw [Trigger.searchAhead, htype]
    -- One of the next two months has 31 days.
    rcases long_month (i + 1) with hlong | hlong
    · refine ⟨_, hon (i + 1) hlong, by omega, ?_⟩
      dsimp only
      omega
    · rw [show i + 1 + 2 = i + 1 + 1 + 1 by omega] at hlong
      refine ⟨_, hon (i + 1 + 1) hlong, by omega, ?_⟩
      dsimp only
      omega

theorem exists_firstDay (hcalendar : t.IsCalendar) (hzone : zone.Lawful) (h0 : 0 ≤ minutes)
    (b : Int) : ∃ n, t.FirstDay zone minutes b n := by
  obtain ⟨late, hon, hlate, -⟩ := exists_onDay hcalendar (zone.dayAt b + 3)
  obtain ⟨n, ⟨hnOn, hfrom, hslot⟩, hfirst⟩ := Int.exists_least_of_bdd
    (P := fun n => t.onDay n = true ∧ zone.dayAt b ≤ n ∧ b ≤ zone.slot minutes n)
    ⟨zone.dayAt b, fun n h => h.2.1⟩
    ⟨late, hon, by omega, hzone.le_slot h0 hlate.le⟩
  refine ⟨n, hnOn, hfrom, hslot, ?_⟩
  intro m hm hmfrom hlt
  by_contra hnot
  have hle := hfirst m ⟨hm, hmfrom, not_lt.mp hnot⟩
  omega

theorem searchFrom_le (t : Trigger) (d : Int) : t.searchFrom d ≤ d := by
  rw [Trigger.searchFrom]
  split
  · obtain ⟨-, -, hstart, hday, -⟩ := civilOfDay_spec d
    omega
  · exact le_rfl

section First

variable (hfirst : t.FirstDay zone minutes b n) (hregular : t.Regular zone minutes b n)
  (hzone : zone.Lawful) (h0 : 0 ≤ minutes) (h1 : minutes < 1440)

include hfirst hregular hzone h0 h1

/-- The slots of the days before the first day are before the base. -/
theorem slot_lt_of_lt_firstDay {m : Int} (hm : t.onDay m = true)
    (hfrom : t.searchFrom (zone.dayAt b) ≤ m) (hlt : m < n) : zone.slot minutes m < b := by
  by_cases hbase : zone.dayAt b ≤ m
  · exact hfirst.first m hm hbase hlt
  · by_contra hnot
    have hday := hregular.base.2 _ (not_lt.mp hnot)
    rw [hzone.dayAt_slot h0 h1 (hregular.shown m hm hfrom hlt.le)] at hday
    omega

/-- The first day is that of the base or the next day of the trigger. -/
theorem firstDay_le {m : Int} (hm : t.onDay m = true) (hlt : zone.dayAt b < m) : n ≤ m := by
  by_contra hnot
  have hfrom := searchFrom_le t (zone.dayAt b)
  have hslot := hfirst.first m hm hlt.le (by omega)
  have hday := hregular.base.1 _ hslot.le
  rw [hzone.dayAt_slot h0 h1 (hregular.shown m hm (by omega) (by omega))] at hday
  omega

theorem least_of_firstDay :
    IsLeast {x | b ≤ x ∧ t.Due zone minutes x} (zone.slot minutes n) := by
  have hfrom := searchFrom_le t (zone.dayAt b)
  have hshown := hregular.shown n hfirst.onDay (hfrom.trans hfirst.from_base) le_rfl
  refine ⟨⟨hfirst.slot, (due_iff h0 h1).mpr ⟨n, hfirst.onDay, hzone.wallAt_slot hshown⟩⟩, ?_⟩
  rintro y ⟨hy, hdue⟩
  by_contra hlt
  rw [not_le] at hlt
  obtain ⟨m, hm, hwall⟩ := (due_iff h0 h1).mp hdue
  have hday := dayAt_of_wallAt h0 h1 hwall
  -- The date is not gone back on, so it is between that of the base and `n`.
  have hlow : zone.dayAt b ≤ m := hday ▸ hregular.base.2 y hy
  have hhigh : m ≤ n := by
    rw [← hday, ← hzone.dayAt_slot h0 h1 hshown]
    exact hregular.slot.1 y hlt.le
  have hyslot := hregular.once m hm hlow hhigh y hy hlt.le hwall
  rcases hhigh.lt_or_eq with hbefore | rfl
  · have hpassed := hfirst.first m hm hlow hbefore
    omega
  · omega

end First

/-! ## The searches -/

theorem bounded_of_noEnd (hend : t.schedule.endAt = none) (d : DateTime) :
    t.bounded d = some d := by
  rw [Trigger.bounded, Trigger.withinEnd, hend]
  rfl

theorem firstFrom_eq (hend : t.schedule.endAt = none) {m : Nat} :
    ∀ {f : Nat → Option DateTime} {k : Nat}, k < m → ∀ {c : DateTime}, f k = some c →
      c.isBefore base = false →
      (∀ j < k, ∀ d, f j = some d → d.isBefore base = true) →
      firstFrom t base ((List.range m).map f) = some c := by
  induction m with
  | zero =>
    intro f k hk
    omega
  | succ m ih =>
    intro f k hk c hc hnot hskip
    rw [firstFrom, List.range_succ_eq_map, List.map_cons, List.map_map, List.findSome?_cons]
    cases k with
    | zero =>
      rw [hc]
      simp only [hnot, Bool.false_eq_true, if_false, Option.getD_some]
      exact bounded_of_noEnd hend c
    | succ k =>
      have hrest := ih (f := f ∘ Nat.succ) (k := k) (by omega) hc hnot
        (fun j hj d hd => hskip (j + 1) (by omega) d hd)
      cases hf : f 0 with
      | none => exact hrest
      | some d =>
        dsimp only
        rw [if_pos (hskip 0 (by omega) d hf)]
        exact hrest

/-- A search that comes to the slot of the first day after candidates before the base answers
it. -/
theorem firstFrom_slot (hend : t.schedule.endAt = none) {f : Nat → Option DateTime} {k m : Nat}
    (hk : k < m) (hslot : b ≤ zone.slot minutes n) (hbase : base.micros = b)
    (hfound : f k = some ⟨zone.slot minutes n, zone⟩)
    (hskip : ∀ j < k, ∀ d, f j = some d → d.micros < b) :
    firstFrom t base ((List.range m).map f) = some ⟨zone.slot minutes n, zone⟩ := by
  refine firstFrom_eq hend hk hfound ?_ ?_
  · rw [DateTime.isBefore, decide_eq_false_iff_not, not_lt, hbase]
    exact hslot
  · intro j hj d hd
    rw [DateTime.isBefore, decide_eq_true_eq, hbase]
    exact hskip j hj d hd

/-! ## The three types -/

theorem dateTime_slot (zone : Zone) (h0 : 0 ≤ minutes) (n : Int) :
    zone.dateTime n (minutes.tdiv 60) (minutes % 60) = ⟨zone.slot minutes n, zone⟩ := by
  rw [Zone.dateTime, Zone.slot, Int.tdiv_eq_ediv_of_nonneg h0]
  congr 2
  simp only [dayMicros, hourMicros, minuteMicros]
  omega

theorem atTimeOfDay_slot (zone : Zone) (h0 : 0 ≤ minutes) (d : DateTime) :
    atTimeOfDay zone d minutes = ⟨zone.slot minutes d.dayNumber, zone⟩ :=
  dateTime_slot zone h0 _

theorem dateTime_midnight (zone : Zone) (n : Int) :
    zone.dateTime n 0 0 = ⟨zone.ofWall (n * dayMicros), zone⟩ := by
  rw [Zone.dateTime]
  congr 2
  omega

theorem map_range_cast {α : Type} (f : Int → α) (m : Nat) :
    (do let k ← List.range m; pure (k : Int)).map f = (List.range m).map fun k : Nat => f k := by
  simp [List.bind_eq_flatMap, ← List.map_eq_flatMap]

theorem orMissed_ignored (hignore : t.schedule.ignoreMissedRuns = true)
    (missed next : Option DateTime) : orMissed t missed next = next := by
  simp [orMissed, hignore]

/-- The slot of a month. -/
def monthlySlot (env : ScheduleEnv) (location : Option Zone) (minutes dayOfMonth year month : Int) :
    DateTime :=
  match location with
  | some location =>
    location.dateTime (dayOfCivil year month dayOfMonth) (minutes.tdiv 60) (minutes % 60)
  | none => atTimeOfDay env.system (env.system.date year month dayOfMonth) minutes

/-- Without a location the date of the slot is read back. -/
theorem monthlySlot_eq (location : Option Zone) (h0 : 0 ≤ minutes) {year month dayOfMonth : Int}
    (hread : env.system.dayAt (env.system.ofWall (dayOfCivil year month dayOfMonth * dayMicros)) =
      dayOfCivil year month dayOfMonth) :
    monthlySlot env location minutes dayOfMonth year month =
      ⟨(slotZone env location).slot minutes (dayOfCivil year month dayOfMonth),
        slotZone env location⟩ := by
  cases location with
  | some location => exact dateTime_slot location h0 _
  | none =>
    rw [monthlySlot, atTimeOfDay_slot _ h0, Zone.date, dateTime_midnight]
    exact congrArg (fun day => (⟨env.system.slot minutes day, env.system⟩ : DateTime)) hread

theorem nextMonthly_eq (env : ScheduleEnv) (now : DateTime) (location : Option Zone)
    (hignore : t.schedule.ignoreMissedRuns = true)
    (hminutes : t.schedule.timeOfDayMinutes = some minutes) {dayOfMonth : Int}
    (hdayOfMonth : t.schedule.dayOfMonth = some dayOfMonth) :
    nextMonthly env t now location =
      firstFrom t (inLocation location (t.effectiveBase now))
        ((List.range 36).map fun k : Nat =>
          monthlyCandidate env (monthlySlot env location minutes dayOfMonth) dayOfMonth
            (inLocation location (t.effectiveBase now)) k) := by
  rw [nextMonthly, hminutes, hdayOfMonth]
  cases location with
  | some location =>
    dsimp only
    rw [nextMonthlyIn, orMissed_ignored hignore, map_range_cast]
    rfl
  | none =>
    dsimp only
    rw [nextMonthlyIn, orMissed_ignored hignore, map_range_cast]
    rfl

/-- The candidate of a month whose first and last day read back as they were built. -/
theorem monthlyCandidate_eq (slot : Int → Int → DateTime) (dayOfMonth : Int) (date : DateTime)
    {k i : Int} (hi : date.civil.monthIndex + k = i)
    (hfirst : env.system.dayAt (env.system.ofWall (monthStart i * dayMicros)) = monthStart i)
    (hlast : env.system.dayAt (env.system.ofWall ((monthStart (i + 1) - 1) * dayMicros)) =
      monthStart (i + 1) - 1) :
    monthlyCandidate env slot dayOfMonth date k =
      if monthStart (i + 1) - monthStart i < dayOfMonth then none
      else some (slot (civilOfDay (monthStart i)).year (civilOfDay (monthStart i)).month) := by
  have hlength := monthLength_bounds i
  have hindex : (civilOfDay (monthStart i)).monthIndex = i := monthIndex_eq le_rfl (by omega)
  have hmonth : (env.system.date date.civil.year (date.civil.month + k) 1).civil =
      civilOfDay (monthStart i) := by
    rw [Zone.date, dayOfCivil_monthIndex, hi, show monthStart i + (1 - 1) = monthStart i by omega,
      dateTime_midnight]
    exact congrArg civilOfDay hfirst
  have hdays : daysInMonth env (civilOfDay (monthStart i)).year
      (civilOfDay (monthStart i)).month = monthStart (i + 1) - monthStart i := by
    rw [daysInMonth, Zone.date, dayOfCivil_monthIndex, hindex,
      show monthStart (i + 1) + (0 - 1) = monthStart (i + 1) - 1 by omega, dateTime_midnight]
    show (civilOfDay (env.system.dayAt (env.system.ofWall _))).day = _
    rw [hlast, @civilDay_eq _ i (by omega) (by omega)]
    omega
  simp only [monthlyCandidate, hmonth, hdays]

/-- A day of the trigger in a month that has it. -/
theorem onDay_monthStart (htype : t.type = .monthly) {dayOfMonth i : Int}
    (hdayOfMonth : t.schedule.dayOfMonth = some dayOfMonth) (hlow : 1 ≤ dayOfMonth)
    (hhas : dayOfMonth ≤ monthStart (i + 1) - monthStart i) :
    t.onDay (monthStart i + (dayOfMonth - 1)) = true := by
  rw [Trigger.onDay, htype, hdayOfMonth, @civilDay_eq _ i (by omega) (by omega)]
  exact decide_eq_true (congrArg some (by omega))

/-- A day within a quarter is in one of the next months. -/
theorem monthIndex_lt {d n : Int} (h : n ≤ d + 92) :
    (civilOfDay n).monthIndex < (civilOfDay d).monthIndex + 5 := by
  obtain ⟨-, -, -, -, hnext⟩ := civilOfDay_spec d
  obtain ⟨-, -, hstart, hday, -⟩ := civilOfDay_spec n
  obtain ⟨i, hi⟩ : ∃ i, i = (civilOfDay d).monthIndex := ⟨_, rfl⟩
  rw [← hi] at hnext ⊢
  by_contra hnot
  have hmono := monthStart_strictMono.monotone
    (show i + 1 + 1 + 1 + 1 + 1 ≤ (civilOfDay n).monthIndex by omega)
  have hfirst := (monthLength_bounds (i + 1)).1
  have hsecond := (monthLength_bounds (i + 1 + 1)).1
  have hthird := (monthLength_bounds (i + 1 + 1 + 1)).1
  have hfourth := (monthLength_bounds (i + 1 + 1 + 1 + 1)).1
  omega

section Months

variable {i₀ iₙ k dayOfMonth : Int} (htype : t.type = .monthly)
  (hdayOfMonth : t.schedule.dayOfMonth = some dayOfMonth) (hlow : 1 ≤ dayOfMonth)
  (h0 : 0 ≤ minutes)
  (hread : ∀ m, monthStart i₀ ≤ m → m < monthStart (iₙ + 1) → t.ReadBack m →
    env.system.dayAt (env.system.ofWall (m * dayMicros)) = m)

include htype hdayOfMonth hlow h0 hread

/-- Up to the month of the first day the candidate of a month is the slot of its day. -/
theorem monthlyCandidate_slot (location : Option Zone) (date : DateTime)
    (hdate : date.civil.monthIndex = i₀) (hk : 0 ≤ k) (hupTo : i₀ + k ≤ iₙ) :
    monthlyCandidate env (monthlySlot env location minutes dayOfMonth) dayOfMonth date k =
      if monthStart (i₀ + k + 1) - monthStart (i₀ + k) < dayOfMonth then none
      else some ⟨(slotZone env location).slot minutes (monthStart (i₀ + k) + (dayOfMonth - 1)),
        slotZone env location⟩ := by
  have hmono := monthStart_strictMono.monotone
  have hfrom := hmono (show i₀ ≤ i₀ + k by omega)
  have hto := hmono (show i₀ + k + 1 ≤ iₙ + 1 by omega)
  obtain ⟨hlength, -⟩ := monthLength_bounds (i₀ + k)
  have hfirst : (civilOfDay (monthStart (i₀ + k))).day = 1 := by
    rw [@civilDay_eq _ (i₀ + k) le_rfl (by omega)]
    omega
  have hlast : (civilOfDay (monthStart (i₀ + k + 1) - 1 + 1)).day = 1 := by
    obtain ⟨hlength', -⟩ := monthLength_bounds (i₀ + k + 1)
    rw [Int.sub_add_cancel, @civilDay_eq _ (i₀ + k + 1) le_rfl (by omega)]
    omega
  rw [monthlyCandidate_eq _ dayOfMonth date (by rw [hdate])
    (hread _ hfrom (by omega) (.inl hfirst)) (hread _ (by omega) (by omega) (.inr (.inl hlast)))]
  by_cases hshort : monthStart (i₀ + k + 1) - monthStart (i₀ + k) < dayOfMonth
  · rw [if_pos hshort, if_pos hshort]
  · rw [if_neg hshort, if_neg hshort]
    have hbuilt : dayOfCivil (civilOfDay (monthStart (i₀ + k))).year
        (civilOfDay (monthStart (i₀ + k))).month dayOfMonth =
        monthStart (i₀ + k) + (dayOfMonth - 1) := by
      have hzero := dayOfCivil_monthIndex (civilOfDay (monthStart (i₀ + k))) 0 dayOfMonth
      rwa [Int.add_zero, Int.add_zero, @monthIndex_eq _ (i₀ + k) le_rfl (by omega)] at hzero
    have hon := onDay_monthStart htype hdayOfMonth hlow (not_lt.mp hshort)
    rw [monthlySlot_eq location h0, hbuilt]
    rw [hbuilt]
    exact hread _ (by omega) (by omega) (.inr (.inr hon))

end Months

section Types

variable {location : Option Zone} (hend : t.schedule.endAt = none)
  (hignore : t.schedule.ignoreMissedRuns = true)
  (hminutes : t.schedule.timeOfDayMinutes = some minutes) (h0 : 0 ≤ minutes)
  (hday : (inLocation location (t.effectiveBase now)).dayNumber =
    (slotZone env location).dayAt (t.effectiveBase now).micros)
  (hsteps : t.StepsTo env location minutes (t.effectiveBase now).micros n)
  (hfirst : t.FirstDay (slotZone env location) minutes (t.effectiveBase now).micros n)

include hend hignore hminutes h0 hday hsteps hfirst

theorem nextDaily_firstDay (htype : t.type = .daily) :
    nextDaily env t now location =
      some ⟨(slotZone env location).slot minutes n, slotZone env location⟩ := by
  obtain ⟨b, hb⟩ : ∃ b, b = (t.effectiveBase now).micros := ⟨_, rfl⟩
  have hmicros : (inLocation location (t.effectiveBase now)).micros = b := by
    rw [micros_inLocation, hb]
  rw [nextDaily_eq env t now location hminutes, orMissed_ignored hignore]
  rw [← hb] at hsteps hday hfirst
  have hon : ∀ n, t.onDay n = true := by
    intro n
    rw [Trigger.onDay, htype]
  have hslot : slotOn env location minutes (inLocation location (t.effectiveBase now)) =
      ⟨(slotZone env location).slot minutes ((slotZone env location).dayAt b),
        slotZone env location⟩ := by
    rw [slotOn, atTimeOfDay_slot _ h0, hday]
  simp only [Trigger.StepsTo, htype] at hsteps
  dsimp only
  rw [hslot]
  rcases hfirst.from_base.lt_or_eq with hlt | heq
  · have hbefore := hfirst.first _ (hon _) le_rfl hlt
    have hstep := hsteps hlt
    rw [if_pos (by simpa [DateTime.isBefore, hmicros] using hbefore), bounded_of_noEnd hend]
    congr 1
    cases location with
    | some location =>
      rw [slotAfter, atTimeOfDay_slot _ h0]
      show (⟨location.slot minutes (location.dayAt ((t.effectiveBase now).micros + dayMicros)),
        location⟩ : DateTime) = _
      rw [← hb, hstep]
      rfl
    | none =>
      rw [slotAfter, atTimeOfDay_slot _ h0, hday, ← hstep]
      rfl
  · rw [heq, if_neg (by simpa [DateTime.isBefore, hmicros] using hfirst.slot),
      bounded_of_noEnd hend]

theorem nextWeekly_firstDay (htype : t.type = .weekly)
    (hnext : n ≤ (slotZone env location).dayAt (t.effectiveBase now).micros + 7) :
    nextWeekly env t now location =
      some ⟨(slotZone env location).slot minutes n, slotZone env location⟩ := by
  have hon : ∀ n, t.onDay n = decide ((n + 3) % 7 + 1 ∈ t.schedule.weekdays) := by
    intro n
    rw [Trigger.onDay, htype]
  have hne : t.schedule.weekdays.isEmpty = false := by
    have hmem := hfirst.onDay
    rw [hon, decide_eq_true_eq] at hmem
    rw [List.isEmpty_eq_false_iff]
    exact List.ne_nil_of_mem hmem
  have hsearch : nextWeekly env t now location =
      firstFrom t (inLocation location (t.effectiveBase now))
        ((List.range 8).map fun offset : Nat => weeklyCandidate (slotZone env location) t minutes
          ((slotZone env location).dateTime
            (inLocation location (t.effectiveBase now)).dayNumber 0 0) offset) := by
    rw [nextWeekly, hminutes]
    dsimp only
    rw [hne, if_neg (by simp)]
    cases location with
    | some location =>
      dsimp only
      rw [nextWeeklyIn, orMissed_ignored hignore, map_range_cast]
      rfl
    | none =>
      dsimp only
      rw [nextWeeklyIn, orMissed_ignored hignore, map_range_cast]
      rfl
  rw [hsearch, hday]
  simp only [Trigger.StepsTo, htype] at hsteps
  generalize slotZone env location = zone at *
  generalize hb : (t.effectiveBase now).micros = b at *
  -- The step to a day that is not after the first one leads to it.
  have hcandidate : ∀ k : Nat, zone.dayAt b + k ≤ n →
      weeklyCandidate zone t minutes (zone.dateTime (zone.dayAt b) 0 0) k =
        if t.onDay (zone.dayAt b + k) then some ⟨zone.slot minutes (zone.dayAt b + k), zone⟩
        else none := by
    intro k hk
    have hnumber : ((zone.dateTime (zone.dayAt b) 0 0).add (k * dayMicros)).dayNumber =
        zone.dayAt b + k := by
      rw [dateTime_midnight]
      exact hsteps k hk
    rw [weeklyCandidate, DateTime.weekday, atTimeOfDay_slot _ h0, hnumber, hon]
    simp only [decide_eq_true_eq]
  have hfrom := hfirst.from_base
  have hoffset : zone.dayAt b + ((n - zone.dayAt b).toNat : Int) = n := by omega
  refine firstFrom_slot (k := (n - zone.dayAt b).toNat) hend (by omega) hfirst.slot
    (by rw [micros_inLocation, hb]) ?_ ?_
  · rw [hcandidate _ hoffset.le, hoffset, if_pos hfirst.onDay]
  · intro j hj d hd
    rw [hcandidate j (by omega)] at hd
    split at hd
    · rename_i hjOn
      cases hd
      exact hfirst.first _ hjOn (by omega) (by omega)
    · cases hd

theorem nextMonthly_firstDay (htype : t.type = .monthly) {dayOfMonth : Int}
    (hdayOfMonth : t.schedule.dayOfMonth = some dayOfMonth) (hlow : 1 ≤ dayOfMonth)
    (hpassed : ∀ m, t.onDay m = true →
      t.searchFrom ((slotZone env location).dayAt (t.effectiveBase now).micros) ≤ m → m < n →
      (slotZone env location).slot minutes m < (t.effectiveBase now).micros)
    (hnext : n ≤ (slotZone env location).dayAt (t.effectiveBase now).micros + 92) :
    nextMonthly env t now location =
      some ⟨(slotZone env location).slot minutes n, slotZone env location⟩ := by
  have hcivil : (inLocation location (t.effectiveBase now)).civil =
      civilOfDay ((slotZone env location).dayAt (t.effectiveBase now).micros) :=
    congrArg civilOfDay hday
  rw [nextMonthly_eq env now location hignore hminutes hdayOfMonth]
  simp only [Trigger.StepsTo, htype] at hsteps
  have hmicros := micros_inLocation location (t.effectiveBase now)
  generalize inLocation location (t.effectiveBase now) = base at *
  generalize hzone : slotZone env location = zone at *
  rw [← hmicros] at hfirst hpassed hnext hcivil hsteps
  obtain ⟨-, -, hstart, hdayPos, hmonthEnd⟩ := civilOfDay_spec (zone.dayAt base.micros)
  obtain ⟨-, -, hstartₙ, -, hmonthEndₙ⟩ := civilOfDay_spec n
  have hdayₙ : (civilOfDay n).day = dayOfMonth := by
    have hon := hfirst.onDay
    rw [Trigger.onDay, htype, hdayOfMonth] at hon
    simpa using hon
  have hmono := monthStart_strictMono.monotone
  have hwithin := monthIndex_lt hnext
  have hfrom : t.searchFrom (zone.dayAt base.micros) =
      monthStart (civilOfDay (zone.dayAt base.micros)).monthIndex := by
    rw [Trigger.searchFrom, if_pos htype]
  rw [hfrom] at hpassed hsteps
  have hdate : base.civil.monthIndex = (civilOfDay (zone.dayAt base.micros)).monthIndex := by
    rw [hcivil]
  generalize (civilOfDay (zone.dayAt base.micros)).monthIndex = i₀ at *
  generalize (civilOfDay n).monthIndex = iₙ at *
  have hle : i₀ ≤ iₙ := by
    by_contra hnot
    have hearlier := hmono (show iₙ + 1 ≤ i₀ by omega)
    have hbase := hfirst.from_base
    omega
  have hcandidate : ∀ k : Nat, i₀ + k ≤ iₙ →
      monthlyCandidate env (monthlySlot env location minutes dayOfMonth) dayOfMonth base k =
        if monthStart (i₀ + k + 1) - monthStart (i₀ + k) < dayOfMonth then none
        else some ⟨zone.slot minutes (monthStart (i₀ + k) + (dayOfMonth - 1)), zone⟩ := by
    intro k hk
    rw [← hzone]
    exact monthlyCandidate_slot htype hdayOfMonth hlow h0 hsteps location base hdate (by omega) hk
  have hoffset : i₀ + ((iₙ - i₀).toNat : Int) = iₙ := by omega
  refine firstFrom_slot (k := (iₙ - i₀).toNat) hend (by omega) hfirst.slot rfl ?_ ?_
  · rw [hcandidate _ hoffset.le, hoffset, if_neg (by omega), ← hdayₙ, hstartₙ]
  · intro j hj d hd
    rw [hcandidate j (by omega)] at hd
    split at hd
    · cases hd
    · rename_i hhas
      cases hd
      have hstartⱼ := hmono (show i₀ ≤ i₀ + (j : Int) by omega)
      have hendⱼ := hmono (show i₀ + (j : Int) + 1 ≤ iₙ by omega)
      exact hpassed _ (onDay_monthStart htype hdayOfMonth hlow (not_lt.mp hhas)) (by omega)
        (by omega)

end Types

/-! ## The next run -/

theorem bumped_le_iff (last base : DateTime) (x : Int) :
    (if !last.isBefore base then last.add 1 else base).micros ≤ x ↔
      base.micros ≤ x ∧ last.micros < x := by
  by_cases hbefore : last.micros < base.micros
  · rw [if_neg (by simp [DateTime.isBefore, hbefore])]
    omega
  · rw [if_pos (by simp [DateTime.isBefore, hbefore])]
    show last.micros + 1 ≤ x ↔ _
    omega

theorem started_le_iff (startAt now : DateTime) (x : Int) :
    (if startAt.isAfter now then startAt else now).micros ≤ x ↔
      now.micros ≤ x ∧ startAt.micros ≤ x := by
  by_cases hafter : now.micros < startAt.micros
  · rw [if_pos (by simp [DateTime.isAfter, hafter])]
    omega
  · rw [if_neg (by simp [DateTime.isAfter, hafter])]
    omega

theorem effectiveBase_le_iff (t : Trigger) (now : DateTime) (x : Int) :
    (t.effectiveBase now).micros ≤ x ↔ now.micros ≤ x ∧
      (∀ startAt, t.schedule.startAt = some startAt → startAt.micros ≤ x) ∧
      ∀ last, t.lastScheduledAt = some last → last.micros < x := by
  cases hstart : t.schedule.startAt with
  | none =>
    cases hlast : t.lastScheduledAt with
    | none => simp [Trigger.effectiveBase, hstart, hlast]
    | some last =>
      simp only [Trigger.effectiveBase, hstart, hlast, bumped_le_iff]
      simp
  | some startAt =>
    cases hlast : t.lastScheduledAt with
    | none =>
      simp only [Trigger.effectiveBase, hstart, hlast, started_le_iff]
      simp
    | some last =>
      simp only [Trigger.effectiveBase, hstart, hlast, bumped_le_iff, started_le_iff]
      simp [and_assoc]

/-- A weekly trigger on Sundays. -/
def sundays (minutes : Int) : Trigger where
  id := "sundays"
  type := .weekly
  schedule := { timeOfDayMinutes := some minutes, weekdays := [7], timezoneId := some "zone" }

-- On 2026-10-25, a Sunday of 25 hours, whole days on from midnight end on the Saturday after it,
-- and a search for Sundays from noon on finds nothing.
example : nextRun ⟨utc, fun _ => some autumn⟩ (sundays 30) (autumn.dateTime 20751 12 0) =
    .ok none := rfl

theorem lawful_autumn : autumn.Lawful := by
  refine ⟨?_, ?_, ?_⟩
  · intro x
    rcases lt_or_ge x (20751 * dayMicros + hourMicros) with hx | hx
    · rw [show autumn.offset x = 2 * hourMicros from if_pos hx]
      decide
    · rw [show autumn.offset x = hourMicros from if_neg (not_lt.mpr hx)]
      decide
  · intro x
    simp only [Zone.wallAt, autumn, dayMicros, hourMicros]
    split_ifs <;> omega
  · intro w
    rcases lt_or_ge (w - 2 * hourMicros) (20751 * dayMicros + hourMicros) with hw | hw
    · exact ⟨0, if_pos hw⟩
    · have hlate : autumn.offset (20752 * dayMicros) = hourMicros := by decide
      exact ⟨20752 * dayMicros, by rw [hlate]; exact if_neg (not_lt.mpr hw)⟩

theorem shows_autumn (minutes n : Int) : autumn.Shows minutes n := by
  refine ⟨autumn.ofWall (n * dayMicros + minutes * minuteMicros), ?_⟩
  simp only [Zone.wallAt, autumn, dayMicros, hourMicros, minuteMicros]
  split_ifs <;> omega

theorem settled_autumn (x : Int) : autumn.Settled x := by
  constructor
  · intro y hy
    simp only [Zone.dayAt, Zone.wallAt, autumn, dayMicros, hourMicros]
    split_ifs <;> omega
  · intro y hy
    simp only [Zone.dayAt, Zone.wallAt, autumn, dayMicros, hourMicros]
    split_ifs <;> omega

/-- An offset of one hour until 2026-03-29 01:00 UTC and of two hours from then on.  A reading
that does not come is taken with the offset from before the change. -/
def spring : Zone where
  offset x := if x < 20541 * dayMicros + hourMicros then hourMicros else 2 * hourMicros
  ofWall w :=
    if w - 2 * hourMicros < 20541 * dayMicros + hourMicros then w - hourMicros
    else w - 2 * hourMicros

/-- A daily trigger at 02:30. -/
def halfPastTwo : Trigger where
  id := "halfPastTwo"
  type := .daily
  schedule := { timeOfDayMinutes := some 150, timezoneId := some "Europe/Berlin" }

theorem bounded_spring : spring.Bounded := by
  intro x
  by_cases hx : x < 20541 * dayMicros + hourMicros
  · have hoffset : spring.offset x = hourMicros := if_pos hx
    rw [hoffset]
    decide
  · have hoffset : spring.offset x = 2 * hourMicros := if_neg hx
    rw [hoffset]
    decide

end PlugAgente.Schedule
