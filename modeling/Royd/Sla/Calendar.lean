/-
Royd.Sla.Calendar — `services/sla_calendar.py`: working-day arithmetic for
SLA deadlines (Reglament 7.3).

Only time that falls on a working day counts. A working day contributes
its full 24 hours, weekends and public holidays contribute nothing, and
days are judged in the university's timezone.

Everything here is an `Int`. A `datetime` is an instant, in microseconds
since 1970-01-01T00:00:00Z (the resolution of both Python and PostgreSQL).
A `timedelta` is a number of microseconds. A `date` is its proleptic
Gregorian ordinal (`date.toordinal`), from which weekday, month and day are
computed. The timezone is a constant offset from UTC, as that of the
default `Asia/Tashkent` is.
-/
import Royd.Core.Python
import Mathlib.Data.Int.Order.Basic

namespace Royd.Sla

/-- `timedelta(hours=n)`. -/
def hours (n : Int) : Int := n * 3600000000

/-- `timedelta(days=1)`. -/
def oneDay : Int := 86400000000

/-- `date(1970, 1, 1).toordinal()`. -/
def epochOrdinal : Int := 719163

/-! ## Dates -/

/-- `date.weekday()`: Monday is 0. -/
def weekday (d : Int) : Nat := ((d + 6) % 7).toNat

/-- Days before each month of a common year. -/
def daysBeforeMonth (month : Int) : Int :=
  match month with
  | 1 => 0 | 2 => 31 | 3 => 59 | 4 => 90 | 5 => 120 | 6 => 151
  | 7 => 181 | 8 => 212 | 9 => 243 | 10 => 273 | 11 => 304 | _ => 334

/-- `(day.month, day.day)`, by the 400/100/4/1-year cycles of `_ord2ymd`. -/
def monthDay (d : Int) : Nat × Nat :=
  let n := (d - 1) % 146097
  let n100 := n / 36524
  let n := n % 36524
  let n4 := n / 1461
  let n := n % 1461
  let n1 := n / 365
  let n := n % 365
  if n1 = 4 ∨ n100 = 4 then (12, 31)
  else
    let leap := n1 = 3 ∧ (n4 ≠ 24 ∨ n100 = 3)
    let before (m : Int) : Int := daysBeforeMonth m + if m > 2 ∧ leap then 1 else 0
    -- The estimate is exact or one too large.
    let month := (n + 50) / 32
    let month := if before month > n then month - 1 else month
    (month.toNat, (n - before month + 1).toNat)

/-! ## Working days -/

/-- The `settings.sla_*` values the calendar reads. -/
structure SlaCalendar where
  /-- Offset of `sla_timezone` from UTC. -/
  utcOffset : Int
  /-- `sla_workdays`: weekdays that are worked. -/
  workdays : List Nat
  /-- `sla_fixed_holidays`: month and day of the yearly holidays. -/
  fixedHolidays : List (Nat × Nat)
  /-- `sla_holidays`: one-off days off. -/
  holidays : List Int
  deriving DecidableEq, Repr

/-- The shipped settings: Monday to Friday in Tashkent. -/
def SlaCalendar.default : SlaCalendar where
  utcOffset := hours 5
  workdays := [0, 1, 2, 3, 4]
  fixedHolidays := [(1, 1), (3, 8), (3, 21), (5, 9), (9, 1), (10, 1), (12, 8)]
  holidays := []

variable (cal : SlaCalendar)

/-- `is_working_day`. -/
def isWorkingDay (day : Int) : Bool :=
  if ¬ cal.workdays.contains (weekday day) then false
  else if cal.fixedHolidays.contains (monthDay day) then false
  else ¬ cal.holidays.contains day

/-- `moment.astimezone(_tz()).date()`. -/
def localDate (moment : Int) : Int :=
  (moment + cal.utcOffset) / oneDay + epochOrdinal

/-- `datetime(day.year, day.month, day.day, tzinfo=_tz())`. -/
def localMidnight (day : Int) : Int :=
  (day - epochOrdinal) * oneDay - cal.utcOffset

/-- `_local_midnight_after`. -/
def localMidnightAfter (moment : Int) : Int :=
  localMidnight cal (localDate cal moment + 1)

theorem lt_localMidnightAfter (moment : Int) : moment < localMidnightAfter cal moment := by
  unfold localMidnightAfter localMidnight localDate oneDay
  omega

/-! ## Adding and measuring working time -/

/-- The loop of `add_working_time`, with the days it may still look at. -/
def addWorkingLoop : Nat → Int → Int → Except Exc Int
  | 0, _, _ => .error (.value "SLA calendar has no working days configured")
  | days + 1, cursor, remaining =>
    let dayEnd := localMidnightAfter cal cursor
    if isWorkingDay cal (localDate cal cursor) then
      let available := dayEnd - cursor
      if remaining ≤ available then .ok (cursor + remaining)
      else addWorkingLoop days dayEnd (remaining - available)
    else addWorkingLoop days dayEnd remaining

/-- `add_working_time`: the moment `duration` of working time has elapsed
after `start`. Bounded so that a calendar without working days cannot hang. -/
def addWorkingTime (start : Int) (duration : Int) : Except Exc Int :=
  addWorkingLoop cal 3660 start duration

/-- The `while` loop of `working_time_between`. It ends because every turn
moves the cursor on. -/
def workingTimeLoop (stop cursor : Int) (total : Int) : Int :=
  if _h : cursor < stop then
    let dayEnd := min (localMidnightAfter cal cursor) stop
    if isWorkingDay cal (localDate cal cursor) then
      workingTimeLoop stop dayEnd (total + (dayEnd - cursor))
    else workingTimeLoop stop dayEnd total
  else total
termination_by (stop - cursor).toNat
decreasing_by
  all_goals
    have := lt_localMidnightAfter cal cursor
    omega

/-- `working_time_between`: working time elapsed from `start` to `stop`. -/
def workingTimeBetween (start stop : Int) : Int :=
  workingTimeLoop cal stop start 0

/-- `sla_deadline_from`. -/
def slaDeadlineFrom (start : Int) (slaHours : Nat) : Except Exc Int :=
  addWorkingTime cal start (hours slaHours)

end Royd.Sla
