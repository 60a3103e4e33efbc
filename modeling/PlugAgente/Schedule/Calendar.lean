import PlugAgente.Schedule.Calculator

/-!
# The calendar of the schedule calculator

Months are counted from January of the year 0.  `monthStart` is the day on which a month
begins, and `civilOfDay_spec` says that the date of a day is that of the month it falls in;
the rest of the calendar is read off these two.

A year is counted from March here, as `dayOfCivil` and `civilOfDay` do, so that the day that
leap years add comes last.
-/

namespace PlugAgente.Schedule

/-- The first day of a month. -/
def monthStart (i : Int) : Int :=
  dayOfCivil (i / 12) (i % 12 + 1) 1

/-- The month of a date. -/
def Civil.monthIndex (c : Civil) : Int :=
  12 * c.year + (c.month - 1)

/-- The first day of a year that begins in March. -/
def marchStart (y : Int) : Int :=
  y / 400 * 146097 + ((y - y / 400 * 400) * 365 + (y - y / 400 * 400) / 4 -
    (y - y / 400 * 400) / 100) - 719468

theorem monthStart_eq (i : Int) :
    monthStart i = marchStart ((i - 2) / 12) + (153 * ((i - 2) % 12) + 2) / 5 := by
  have hyear : i / 12 + (i % 12 + 1 - 1) / 12 = i / 12 := by omega
  have hmonth : (i % 12 + 1 - 1) % 12 + 1 = i % 12 + 1 := by omega
  have hmarch : (i % 12 + 1 + 9) % 12 = (i - 2) % 12 := by omega
  have hfrom : (if i % 12 + 1 ≤ 2 then i / 12 - 1 else i / 12) = (i - 2) / 12 := by
    split <;> omega
  simp only [monthStart, dayOfCivil, marchStart, hyear, hmonth, hmarch, hfrom]
  omega

theorem dayOfCivil_eq (year month day : Int) :
    dayOfCivil year month day = monthStart (12 * year + (month - 1)) + (day - 1) := by
  have hyear : (12 * year + (month - 1)) / 12 + ((12 * year + (month - 1)) % 12 + 1 - 1) / 12 =
      year + (month - 1) / 12 := by omega
  have hmonth : ((12 * year + (month - 1)) % 12 + 1 - 1) % 12 + 1 = (month - 1) % 12 + 1 := by
    omega
  simp only [monthStart, dayOfCivil, hyear, hmonth]
  omega

theorem yearOfEra_spec {d y : Int} (h0 : 0 ≤ d) (h1 : d < 146097)
    (hy : y = (d - d / 1460 + d / 36524 - d / 146096) / 365) :
    0 ≤ y ∧ y ≤ 399 ∧ 365 * y + y / 4 - y / 100 ≤ d ∧
      (d < 365 * (y + 1) + (y + 1) / 4 - (y + 1) / 100 ∨ y = 399) := by
  by_cases hlast : d = 146096
  · subst hlast
    norm_num at hy
    subst hy
    norm_num
  -- `b` counts centuries, `s` cycles of four years in one, and `u` years in a cycle.
  obtain ⟨b, hb⟩ : ∃ b, b = d / 36524 := ⟨_, rfl⟩
  obtain ⟨s, hs⟩ : ∃ s, s = (d - 36524 * b) / 1461 := ⟨_, rfl⟩
  obtain ⟨t, ht⟩ : ∃ t, t = d - 36524 * b - 1461 * s := ⟨_, rfl⟩
  obtain ⟨e, he⟩ : ∃ e, e = (s + t + 24 * b) / 1460 := ⟨_, rfl⟩
  obtain ⟨u, hu⟩ : ∃ u, u = (t - e) / 365 := ⟨_, rfl⟩
  have hbounds : 0 ≤ b ∧ b ≤ 3 ∧ 0 ≤ s ∧ s ≤ 24 ∧ 0 ≤ t ∧ t ≤ 1460 := by omega
  have he1 : 0 ≤ e ∧ e ≤ 1 := by omega
  have hcycles : d / 1460 = 25 * b + s + e := by omega
  have hera : d / 146096 = 0 := by omega
  have hyear : y = 100 * b + 4 * s + u := by omega
  have hu3 : 0 ≤ u ∧ u ≤ 3 := by omega
  have hfour : y / 4 = 25 * b + s := by omega
  have hhundred : y / 100 = b := by omega
  have hlow : 365 * u ≤ t := by omega
  have hhigh : u = 3 ∨ t < 365 * (u + 1) := by omega
  refine ⟨by omega, by omega, by omega, ?_⟩
  rcases hhigh with h3 | hlt
  · by_cases hcentury : s = 24
    · have hnext : (y + 1) / 4 = 25 * b + 25 := by omega
      have hnext' : (y + 1) / 100 = b + 1 := by omega
      omega
    · have hnext : (y + 1) / 4 = 25 * b + s + 1 := by omega
      have hnext' : (y + 1) / 100 = b := by omega
      omega
  · left
    by_cases hu : u = 3
    · by_cases hcentury : s = 24
      · have hnext : (y + 1) / 4 = 25 * b + 25 := by omega
        have hnext' : (y + 1) / 100 = b + 1 := by omega
        omega
      · have hnext' : (y + 1) / 100 = b := by omega
        omega
    · have hnext : (y + 1) / 4 = 25 * b + s := by omega
      have hnext' : (y + 1) / 100 = b := by omega
      omega

theorem marchStart_succ (era : Int) {y : Int} (h0 : 0 ≤ y) (h1 : y ≤ 399) :
    marchStart (era * 400 + y) = era * 146097 + (365 * y + y / 4 - y / 100) - 719468 ∧
      (y < 399 → marchStart (era * 400 + y + 1) =
        era * 146097 + (365 * (y + 1) + (y + 1) / 4 - (y + 1) / 100) - 719468) ∧
      (y = 399 → marchStart (era * 400 + y + 1) = (era + 1) * 146097 - 719468) := by
  refine ⟨?_, ?_, ?_⟩
  · have hera : (era * 400 + y) / 400 = era := by omega
    have hy : era * 400 + y - era * 400 = y := by omega
    rw [marchStart, hera, hy]
    omega
  · intro hlt
    have hera : (era * 400 + y + 1) / 400 = era := by omega
    have hy : era * 400 + y + 1 - era * 400 = y + 1 := by omega
    rw [marchStart, hera, hy]
    omega
  · rintro rfl
    have hera : (era * 400 + 399 + 1) / 400 = era + 1 := by omega
    have hy : era * 400 + 399 + 1 - (era + 1) * 400 = 0 := by omega
    rw [marchStart, hera, hy]
    omega

theorem dayOfYear_bounds {d y : Int} (hd : d < 146097)
    (hlow : 365 * y + y / 4 - y / 100 ≤ d)
    (hhigh : d < 365 * (y + 1) + (y + 1) / 4 - (y + 1) / 100 ∨ y = 399) :
    0 ≤ d - (365 * y + y / 4 - y / 100) ∧ d - (365 * y + y / 4 - y / 100) ≤ 365 := by
  rcases hhigh with hlt | rfl
  · have hfour : (y + 1) / 4 ≤ y / 4 + 1 := by omega
    have hhundred : y / 100 ≤ (y + 1) / 100 := by omega
    omega
  · omega

theorem civilOfDay_parts (n : Int) :
    ∃ era y m r : Int, 0 ≤ y ∧ y ≤ 399 ∧ 0 ≤ m ∧ m ≤ 11 ∧ 0 ≤ r ∧
      n = marchStart (era * 400 + y) + (153 * m + 2) / 5 + r ∧
      (m < 11 → (153 * m + 2) / 5 + r < (153 * (m + 1) + 2) / 5) ∧
      (m = 11 → n < marchStart (era * 400 + y + 1)) ∧
      civilOfDay n = ⟨y + era * 400 + (if (if m < 10 then m + 3 else m - 9) ≤ 2 then 1 else 0),
        if m < 10 then m + 3 else m - 9, r + 1⟩ := by
  obtain ⟨era, hera⟩ : ∃ era, era = (n + 719468) / 146097 := ⟨_, rfl⟩
  obtain ⟨d, hd⟩ : ∃ d, d = n + 719468 - era * 146097 := ⟨_, rfl⟩
  obtain ⟨y, hy⟩ : ∃ y, y = (d - d / 1460 + d / 36524 - d / 146096) / 365 := ⟨_, rfl⟩
  obtain ⟨doy, hdoy⟩ : ∃ doy, doy = d - (365 * y + y / 4 - y / 100) := ⟨_, rfl⟩
  obtain ⟨m, hm⟩ : ∃ m, m = (5 * doy + 2) / 153 := ⟨_, rfl⟩
  have hcivil : civilOfDay n = ⟨y + era * 400 + (if (if m < 10 then m + 3 else m - 9) ≤ 2 then 1
      else 0), if m < 10 then m + 3 else m - 9, doy - (153 * m + 2) / 5 + 1⟩ := by
    rw [civilOfDay, hm, hdoy, hy, hd, hera]
  have hdbounds : 0 ≤ d ∧ d < 146097 := by omega
  obtain ⟨hy0, hy1, hlow, hhigh⟩ := yearOfEra_spec hdbounds.1 hdbounds.2 hy
  obtain ⟨hstart, hnext, hnextEra⟩ := marchStart_succ era hy0 hy1
  have hdoyBounds := dayOfYear_bounds hdbounds.2 hlow hhigh
  rw [← hdoy] at hdoyBounds
  clear hy hera hlow
  refine ⟨era, y, m, doy - (153 * m + 2) / 5, hy0, hy1, by omega, by omega, by omega, ?_, ?_, ?_,
    hcivil⟩
  · rw [hstart]
    omega
  · intro hlt
    omega
  · intro _
    rcases hhigh with hlt | h399
    · by_cases h399 : y = 399
      · rw [hnextEra h399]
        omega
      · rw [hnext (by omega)]
        omega
    · rw [hnextEra h399]
      omega

theorem civilOfDay_spec (n : Int) :
    1 ≤ (civilOfDay n).month ∧ (civilOfDay n).month ≤ 12 ∧
      monthStart (civilOfDay n).monthIndex + ((civilOfDay n).day - 1) = n ∧
      1 ≤ (civilOfDay n).day ∧ n < monthStart ((civilOfDay n).monthIndex + 1) := by
  obtain ⟨era, y, m, r, hy0, hy1, hm0, hm1, hr, hn, hwithin, hlast, hcivil⟩ := civilOfDay_parts n
  have hindex : (civilOfDay n).monthIndex = 12 * (era * 400 + y) + m + 2 := by
    rw [hcivil, Civil.monthIndex]
    dsimp only
    split <;> split <;> omega
  have hmonth : (civilOfDay n).month = if m < 10 then m + 3 else m - 9 := by rw [hcivil]
  have hday : (civilOfDay n).day = r + 1 := by rw [hcivil]
  have hdiv : (12 * (era * 400 + y) + m + 2 - 2) / 12 = era * 400 + y := by omega
  have hmod : (12 * (era * 400 + y) + m + 2 - 2) % 12 = m := by omega
  refine ⟨?_, ?_, ?_, ?_, ?_⟩
  · rw [hmonth]
    split <;> omega
  · rw [hmonth]
    split <;> omega
  · rw [hindex, hday, monthStart_eq, hdiv, hmod]
    omega
  · rw [hday]
    omega
  · rw [hindex, monthStart_eq]
    by_cases hmarch : m = 11
    · have hdiv' : (12 * (era * 400 + y) + m + 2 + 1 - 2) / 12 = era * 400 + y + 1 := by omega
      have hmod' : (12 * (era * 400 + y) + m + 2 + 1 - 2) % 12 = 0 := by omega
      rw [hdiv', hmod']
      have hbefore := hlast hmarch
      omega
    · have hdiv' : (12 * (era * 400 + y) + m + 2 + 1 - 2) / 12 = era * 400 + y := by omega
      have hmod' : (12 * (era * 400 + y) + m + 2 + 1 - 2) % 12 = m + 1 := by omega
      rw [hdiv', hmod']
      have hbefore := hwithin (by omega)
      omega

theorem marchStart_step (y : Int) :
    marchStart y + 365 ≤ marchStart (y + 1) ∧ marchStart (y + 1) ≤ marchStart y + 366 := by
  have hy0 : 0 ≤ y % 400 := by omega
  have hy1 : y % 400 ≤ 399 := by omega
  obtain ⟨hstart, hnext, hnextEra⟩ := marchStart_succ (y / 400) hy0 hy1
  have hsplit : y / 400 * 400 + y % 400 = y := by omega
  rw [hsplit] at hstart hnext hnextEra
  by_cases h399 : y % 400 = 399
  · rw [hstart, hnextEra h399, h399]
    omega
  · rw [hstart, hnext (by omega)]
    omega

theorem monthStart_step (i : Int) :
    monthStart (i + 1) = monthStart i +
        ((153 * ((i - 2) % 12 + 1) + 2) / 5 - (153 * ((i - 2) % 12) + 2) / 5) ∨
      ((i - 2) % 12 = 11 ∧ monthStart i + 28 ≤ monthStart (i + 1) ∧
        monthStart (i + 1) ≤ monthStart i + 29) := by
  rw [monthStart_eq, monthStart_eq]
  by_cases hmarch : (i - 2) % 12 = 11
  · right
    have hdiv : (i + 1 - 2) / 12 = (i - 2) / 12 + 1 := by omega
    have hmod : (i + 1 - 2) % 12 = 0 := by omega
    obtain ⟨hlow, hhigh⟩ := marchStart_step ((i - 2) / 12)
    rw [hdiv, hmod, hmarch]
    omega
  · left
    have hdiv : (i + 1 - 2) / 12 = (i - 2) / 12 := by omega
    have hmod : (i + 1 - 2) % 12 = (i - 2) % 12 + 1 := by omega
    rw [hdiv, hmod]
    omega

theorem monthLength_bounds (i : Int) :
    monthStart i + 28 ≤ monthStart (i + 1) ∧ monthStart (i + 1) ≤ monthStart i + 31 := by
  rcases monthStart_step i with heq | ⟨-, hlow, hhigh⟩
  · omega
  · omega

theorem long_month (i : Int) :
    monthStart (i + 1) = monthStart i + 31 ∨ monthStart (i + 2) = monthStart (i + 1) + 31 := by
  have hfirst := monthStart_step i
  have hsecond := monthStart_step (i + 1)
  rw [show i + 1 + 1 = i + 2 by omega] at hsecond
  obtain ⟨m, hm⟩ : ∃ m, m = (i - 2) % 12 := ⟨_, rfl⟩
  have hmod : (i + 1 - 2) % 12 = if m = 11 then 0 else m + 1 := by
    split <;> omega
  have hlow : 0 ≤ m := by omega
  have hhigh : m ≤ 11 := by omega
  rw [← hm] at hfirst
  rw [hmod] at hsecond
  clear hm hmod
  interval_cases m <;> norm_num at hfirst hsecond <;> omega

theorem monthStart_strictMono : StrictMono monthStart := by
  refine strictMono_int_of_lt_succ fun i => ?_
  have hlow := (monthLength_bounds i).1
  omega

theorem monthIndex_eq {n i : Int} (hlow : monthStart i ≤ n) (hhigh : n < monthStart (i + 1)) :
    (civilOfDay n).monthIndex = i := by
  obtain ⟨-, -, hstart, hday, hnext⟩ := civilOfDay_spec n
  have hle : (civilOfDay n).monthIndex ≤ i := by
    by_contra hgt
    have hmono := monthStart_strictMono.monotone (show i + 1 ≤ (civilOfDay n).monthIndex by omega)
    omega
  have hge : i ≤ (civilOfDay n).monthIndex := by
    by_contra hlt
    have hmono := monthStart_strictMono.monotone (show (civilOfDay n).monthIndex + 1 ≤ i by omega)
    omega
  omega

theorem civilDay_eq {n i : Int} (hlow : monthStart i ≤ n) (hhigh : n < monthStart (i + 1)) :
    (civilOfDay n).day = n - monthStart i + 1 := by
  have hindex := monthIndex_eq hlow hhigh
  obtain ⟨-, -, hstart, -, -⟩ := civilOfDay_spec n
  rw [hindex] at hstart
  omega

theorem dayOfCivil_monthIndex (c : Civil) (offset day : Int) :
    dayOfCivil c.year (c.month + offset) day = monthStart (c.monthIndex + offset) + (day - 1) := by
  have hindex : 12 * c.year + (c.month + offset - 1) = c.monthIndex + offset := by
    rw [Civil.monthIndex]
    omega
  rw [dayOfCivil_eq, hindex]

end PlugAgente.Schedule
