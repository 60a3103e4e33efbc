import PlugAgente.Dart.Text

/-!
# The schedule calculator

`AgentActionTriggerScheduleCalculator`.  An instant is a number of microseconds.
A zone gives the offset of its wall clock at every instant, and the instant that
a constructor picks for a reading of the wall clock.  A `DateTime` is an instant
with the zone its fields are read in: the constructor `DateTime` builds one in the
zone of the system, `TZDateTime` one in the zone of a location, and `add` and
`subtract` keep the zone and move the instant.

Neither the zone database nor the rule by which a constructor picks an instant is
part of the repository, so a zone is any pair of functions.
-/

namespace PlugAgente.Schedule

/-! ## Dates -/

/-- A time zone: the offset of the wall clock at an instant, and the instant of a
reading of the wall clock. -/
structure Zone where
  offset : Int → Int
  ofWall : Int → Int

/-- A `DateTime`. -/
structure DateTime where
  micros : Int
  zone : Zone

def dayMicros : Int := 86400000000
def hourMicros : Int := 3600000000
def minuteMicros : Int := 60000000

/-- A year, a month from 1 to 12 and a day of the month. -/
structure Civil where
  year : Int
  month : Int
  day : Int
  deriving DecidableEq, Repr

/-- The number of a day, day 0 being 1970-01-01.  A month or a day out of range
counts on into the neighbouring years and months, as the constructors of the
source do. -/
def dayOfCivil (year month day : Int) : Int :=
  let y := year + (month - 1) / 12
  let m := (month - 1) % 12 + 1
  let y' := if m ≤ 2 then y - 1 else y
  let era := y' / 400
  let yearOfEra := y' - era * 400
  let dayOfYear := (153 * ((m + 9) % 12) + 2) / 5
  let dayOfEra := yearOfEra * 365 + yearOfEra / 4 - yearOfEra / 100 + dayOfYear
  era * 146097 + dayOfEra - 719468 + (day - 1)

/-- The date of a day number. -/
def civilOfDay (n : Int) : Civil :=
  let z := n + 719468
  let era := z / 146097
  let dayOfEra := z - era * 146097
  let yearOfEra :=
    (dayOfEra - dayOfEra / 1460 + dayOfEra / 36524 - dayOfEra / 146096) / 365
  let dayOfYear := dayOfEra - (365 * yearOfEra + yearOfEra / 4 - yearOfEra / 100)
  let m := (5 * dayOfYear + 2) / 153
  let day := dayOfYear - (153 * m + 2) / 5 + 1
  let month := if m < 10 then m + 3 else m - 9
  ⟨yearOfEra + era * 400 + (if month ≤ 2 then 1 else 0), month, day⟩

example : dayOfCivil 2026 10 25 = 20751 := by decide
example : civilOfDay 20751 = ⟨2026, 10, 25⟩ := by decide
example : civilOfDay (dayOfCivil 2024 14 0) = ⟨2025, 1, 31⟩ := by decide

namespace DateTime

/-- The reading of the wall clock. -/
def wall (d : DateTime) : Int :=
  d.micros + d.zone.offset d.micros

/-- The day of the wall clock. -/
def dayNumber (d : DateTime) : Int :=
  d.wall / dayMicros

def civil (d : DateTime) : Civil :=
  civilOfDay d.dayNumber

/-- `weekday`: 1 for Monday to 7 for Sunday. -/
def weekday (d : DateTime) : Int :=
  (d.dayNumber + 3) % 7 + 1

def add (d : DateTime) (duration : Int) : DateTime :=
  { d with micros := d.micros + duration }

def isBefore (d e : DateTime) : Bool :=
  decide (d.micros < e.micros)

def isAfter (d e : DateTime) : Bool :=
  decide (e.micros < d.micros)

/-- `TZDateTime.from`. -/
def inZone (d : DateTime) (zone : Zone) : DateTime :=
  { d with zone := zone }

end DateTime

/-- The constructor of a date in a zone, from the number of its day. -/
def Zone.dateTime (zone : Zone) (day hour minute : Int) : DateTime :=
  ⟨zone.ofWall (day * dayMicros + hour * hourMicros + minute * minuteMicros), zone⟩

/-! ## Triggers -/

/-- `AgentActionTriggerType`. -/
inductive TriggerType where
  | manual
  | remote
  | once
  | interval
  | daily
  | weekly
  | monthly
  | appStart
  | appClose
  | actionSucceeded
  | actionFailed
  deriving DecidableEq, Repr

def TriggerType.name : TriggerType → String
  | .manual => "manual"
  | .remote => "remote"
  | .once => "once"
  | .interval => "interval"
  | .daily => "daily"
  | .weekly => "weekly"
  | .monthly => "monthly"
  | .appStart => "appStart"
  | .appClose => "appClose"
  | .actionSucceeded => "actionSucceeded"
  | .actionFailed => "actionFailed"

/-- `AgentActionTriggerSchedule`.  The interval is in microseconds. -/
structure TriggerSchedule where
  startAt : Option DateTime := none
  endAt : Option DateTime := none
  interval : Option Int := none
  timeOfDayMinutes : Option Int := none
  weekdays : List Int := []
  dayOfMonth : Option Int := none
  timezoneId : Option String := none
  ignoreMissedRuns : Bool := true

/-- The fields of `AgentActionTrigger` that the calculator reads. -/
structure Trigger where
  id : String
  type : TriggerType
  schedule : TriggerSchedule := {}
  lastScheduledAt : Option DateTime := none
  createdAt : Option DateTime := none

def Trigger.isTemporalTrigger (t : Trigger) : Bool :=
  match t.type with
  | .once | .interval | .daily | .weekly | .monthly => true
  | .manual | .remote | .appStart | .appClose | .actionSucceeded | .actionFailed => false

/-- A failure of the calculator. -/
structure ScheduleFailure where
  message : String
  context : List (String × String)
  deriving DecidableEq, Repr

/-- What the calculator takes from its surroundings: the zone of the system and
`tz.getLocation`. -/
structure ScheduleEnv where
  system : Zone
  getLocation : String → Option Zone

/-! ## Slots -/

namespace Trigger

def withinEnd (t : Trigger) (candidate : DateTime) : Bool :=
  match t.schedule.endAt with
  | none => true
  | some endAt => !candidate.isAfter endAt

/-- A candidate, unless it is past the end of the schedule. -/
def bounded (t : Trigger) (candidate : DateTime) : Option DateTime :=
  if t.withinEnd candidate then some candidate else none

def effectiveBase (t : Trigger) (now : DateTime) : DateTime :=
  let base :=
    match t.schedule.startAt with
    | some startAt => if startAt.isAfter now then startAt else now
    | none => now
  match t.lastScheduledAt with
  | some last => if !last.isBefore base then last.add 1 else base
  | none => base

def firstMissed (t : Trigger) (candidates : List DateTime) (now : DateTime) : Option DateTime :=
  let floor := t.lastScheduledAt <|> t.schedule.startAt
  candidates.find? fun candidate =>
    candidate.isBefore now &&
      (match floor with
      | none => true
      | some floor => candidate.isAfter floor)

end Trigger

/-- `_atTimeOfDay` in the zone of the system, and `_tzAtTimeOfDay` in that of a
location.  The day is read in the zone of the date. -/
def atTimeOfDay (zone : Zone) (date : DateTime) (minutes : Int) : DateTime :=
  zone.dateTime date.dayNumber (minutes.tdiv 60) (minutes % 60)

/-- `DateTime(year, month, day)` in a zone. -/
def Zone.date (zone : Zone) (year month day : Int) : DateTime :=
  zone.dateTime (dayOfCivil year month day) 0 0

/-- `_daysInMonth`, which reads the day back through the zone of the system. -/
def daysInMonth (env : ScheduleEnv) (year month : Int) : Int :=
  (env.system.date year (month + 1) 0).civil.day

/-! ## The next run, by type -/

def nextOnce (t : Trigger) (now : DateTime) : Option DateTime :=
  match t.lastScheduledAt with
  | some _ => none
  | none =>
    match t.schedule.startAt with
    | none => none
    | some startAt =>
      if startAt.isBefore now then
        if !t.schedule.ignoreMissedRuns then t.bounded startAt else none
      else t.bounded startAt

/-- The anchor of `_nextInterval`. -/
def intervalAnchor (t : Trigger) (now : DateTime) : DateTime :=
  ((t.schedule.startAt <|> t.createdAt) <|> t.lastScheduledAt).getD now

/-- The number of intervals from the anchor to the first boundary that is not
before `now`. -/
def nextStep (elapsed interval : Int) : Int :=
  if elapsed % interval = 0 then elapsed / interval else elapsed / interval + 1

/-- Whether `lastScheduledAt` is set and not before `d`. -/
def notAfterLast (t : Trigger) (d : DateTime) : Bool :=
  match t.lastScheduledAt with
  | some last => !d.isAfter last
  | none => false

def nextInterval (t : Trigger) (now : DateTime) : Option DateTime :=
  match t.schedule.interval with
  | none => none
  | some interval =>
    if interval ≤ 0 then none
    else
      let anchor := intervalAnchor t now
      if anchor.isAfter now then t.bounded anchor
      else
        let elapsed := now.micros - anchor.micros
        let missedSlot := anchor.add (interval * (elapsed / interval))
        if !t.schedule.ignoreMissedRuns && !notAfterLast t missedSlot then t.bounded missedSlot
        else
          let next := anchor.add (interval * nextStep elapsed interval)
          if notAfterLast t next then
            t.bounded (anchor.add (interval * (nextStep elapsed interval + 1)))
          else t.bounded next

/-- The missed slot of a daily trigger, `_missedDailySlot` and the same lines of
`_nextDailyInLocation`. -/
def missedDailySlot (zone : Zone) (t : Trigger) (now : DateTime) (minutes : Int) :
    Option DateTime :=
  t.firstMissed [atTimeOfDay zone now minutes, atTimeOfDay zone (now.add (-dayMicros)) minutes] now

/-- The catch-up of a trigger that does not ignore missed runs, before the search
for the next slot. -/
def orMissed (t : Trigger) (missed next : Option DateTime) : Option DateTime :=
  if !t.schedule.ignoreMissedRuns then
    match missed with
    | some slot => t.bounded slot
    | none => next
  else next

/-- `_nextDaily` without a location. -/
def nextDailyInSystem (env : ScheduleEnv) (t : Trigger) (now : DateTime) (minutes : Int) :
    Option DateTime :=
  orMissed t (missedDailySlot env.system t now minutes) <|
    let base := t.effectiveBase now
    let candidate := atTimeOfDay env.system base minutes
    if candidate.isBefore base then t.bounded (candidate.add dayMicros) else t.bounded candidate

def nextDailyInLocation (t : Trigger) (now : DateTime) (location : Zone) (minutes : Int) :
    Option DateTime :=
  orMissed t (missedDailySlot location t (now.inZone location) minutes) <|
    let base := (t.effectiveBase now).inZone location
    let candidate := atTimeOfDay location base minutes
    if candidate.isBefore base then
      t.bounded (atTimeOfDay location (base.add dayMicros) minutes)
    else t.bounded candidate

def nextDaily (env : ScheduleEnv) (t : Trigger) (now : DateTime) (location : Option Zone) :
    Option DateTime :=
  match t.schedule.timeOfDayMinutes with
  | none => none
  | some minutes =>
    match location with
    | some location => nextDailyInLocation t now location minutes
    | none => nextDailyInSystem env t now minutes

/-- A search that answers the first candidate that is not before `base`: `none`
goes on with the next offset. -/
def firstFrom (t : Trigger) (base : DateTime) (candidates : List (Option DateTime)) :
    Option DateTime :=
  (candidates.findSome? fun
    | none => none
    | some candidate =>
      if candidate.isBefore base then none else some (t.bounded candidate)).getD none

def firstMissedOf (t : Trigger) (now : DateTime) (candidates : List (Option DateTime)) :
    Option DateTime :=
  candidates.findSome? fun
    | none => none
    | some candidate => t.firstMissed [candidate] now

/-- The slot `offset` days from a day, if its weekday is one of the trigger's. -/
def weeklyCandidate (zone : Zone) (t : Trigger) (minutes : Int) (day : DateTime) (offset : Int) :
    Option DateTime :=
  let date := day.add (offset * dayMicros)
  if date.weekday ∈ t.schedule.weekdays then some (atTimeOfDay zone date minutes) else none

/-- The body of `_nextWeekly` and of `_nextWeeklyInLocation`, in the zone in which
the slots are built; `base` and `now` are read in their own zones. -/
def nextWeeklyIn (zone : Zone) (t : Trigger) (base now : DateTime) (minutes : Int) :
    Option DateTime :=
  let today := zone.dateTime now.dayNumber 0 0
  let startDay := zone.dateTime base.dayNumber 0 0
  orMissed t
    (firstMissedOf t now
      ((List.range 8).map fun offset => weeklyCandidate zone t minutes today (-(offset : Int))))
    (firstFrom t base
      ((List.range 8).map fun offset => weeklyCandidate zone t minutes startDay offset))

def nextWeekly (env : ScheduleEnv) (t : Trigger) (now : DateTime) (location : Option Zone) :
    Option DateTime :=
  match t.schedule.timeOfDayMinutes with
  | none => none
  | some minutes =>
    if t.schedule.weekdays.isEmpty then none
    else
      let base := t.effectiveBase now
      match location with
      | some location =>
        nextWeeklyIn location t (base.inZone location) (now.inZone location) minutes
      | none => nextWeeklyIn env.system t base now minutes

/-- The slot in the month `offset` months from a date, if the month has that day.
The month is read back through the zone of the system. -/
def monthlyCandidate (env : ScheduleEnv) (slot : Int → Int → DateTime) (dayOfMonth : Int)
    (date : DateTime) (offset : Int) : Option DateTime :=
  let month := (env.system.date date.civil.year (date.civil.month + offset) 1).civil
  if daysInMonth env month.year month.month < dayOfMonth then none
  else some (slot month.year month.month)

/-- The body of `_nextMonthly` and of `_nextMonthlyInLocation`, by the slot of a
month. -/
def nextMonthlyIn (env : ScheduleEnv) (slot : Int → Int → DateTime) (t : Trigger)
    (base now : DateTime) (dayOfMonth : Int) : Option DateTime :=
  orMissed t
    (firstMissedOf t now
      ((List.range 36).map fun offset =>
        monthlyCandidate env slot dayOfMonth now (-(offset : Int))))
    (firstFrom t base
      ((List.range 36).map fun offset => monthlyCandidate env slot dayOfMonth base offset))

/-- `_nextMonthly`.  Without a location the slot is built from the date of the
day, with one it is built at once. -/
def nextMonthly (env : ScheduleEnv) (t : Trigger) (now : DateTime) (location : Option Zone) :
    Option DateTime :=
  match t.schedule.timeOfDayMinutes, t.schedule.dayOfMonth with
  | some minutes, some dayOfMonth =>
    let base := t.effectiveBase now
    match location with
    | some location =>
      nextMonthlyIn env
        (fun year month =>
          location.dateTime (dayOfCivil year month dayOfMonth) (minutes.tdiv 60) (minutes % 60))
        t (base.inZone location) (now.inZone location) dayOfMonth
    | none =>
      nextMonthlyIn env
        (fun year month => atTimeOfDay env.system (env.system.date year month dayOfMonth) minutes)
        t base now dayOfMonth
  | _, _ => none

/-! ## The calculator -/

def resolveLocation (env : ScheduleEnv) (t : Trigger) :
    Except ScheduleFailure (Option Zone) :=
  match t.schedule.timezoneId.map fun id => String.ofList (Dart.trim id.toList) with
  | none => .ok none
  | some id =>
    if id.isEmpty then .ok none
    else
      match env.getLocation id with
      | some location => .ok (some location)
      | none =>
        .error
          { message := "Action trigger timezone is not a known IANA identifier."
            context :=
              [("trigger_id", t.id), ("field", "schedule.timezoneId"), ("timezone_id", id),
                ("reason", "unknown_timezone"),
                ("user_message",
                  "Informe um fuso IANA valido (ex.: America/Sao_Paulo, Europe/Lisbon, UTC).")] }

/-- The `nextRunAt` of the decision of `nextRun`. -/
def nextRun (env : ScheduleEnv) (t : Trigger) (now : DateTime) :
    Except ScheduleFailure (Option DateTime) :=
  if !t.isTemporalTrigger then
    .error
      { message := "Action trigger type does not support temporal scheduling."
        context :=
          [("trigger_id", t.id), ("trigger_type", t.type.name), ("reason", "non_temporal_trigger"),
            ("user_message", "Este tipo de gatilho nao usa agendamento temporal.")] }
  else
    match resolveLocation env t with
    | .error failure => .error failure
    | .ok location =>
      .ok <|
        match t.type with
        | .once => nextOnce t now
        | .interval => nextInterval t now
        | .daily => nextDaily env t now location
        | .weekly => nextWeekly env t now location
        | .monthly => nextMonthly env t now location
        | .manual | .remote | .appStart | .appClose | .actionSucceeded | .actionFailed => none

/-! ## The reschedule loop -/

/-- The trigger that `_scheduleTemporalTrigger` computes with: an interval without
a start gets one. -/
def effectiveTrigger (t : Trigger) (now : DateTime) : Trigger :=
  if t.type = .interval && t.schedule.startAt.isNone then
    { t with
      schedule :=
        { t.schedule with startAt := some ((t.createdAt <|> t.lastScheduledAt).getD now) } }
  else t

/-- `_scheduleTemporalTrigger` and `_dispatchAndReschedule` in turn: the slots that
are dispatched, by the two readings of the clock in each turn.  The trigger is
dispatched at its slot, which becomes its `lastScheduledAt`. -/
def dispatchLoop (env : ScheduleEnv) : Trigger → List (DateTime × DateTime) → List DateTime
  | _, [] => []
  | t, (now₁, now₂) :: rest =>
    let effective := effectiveTrigger t now₁
    match nextRun env effective now₂ with
    | .ok (some slot) =>
      slot :: dispatchLoop env { effective with lastScheduledAt := some slot } rest
    | _ => []

end PlugAgente.Schedule
