/-!
# Dates and times

A `Moment` is a day, perhaps with a time of that day, perhaps with the distance of its clock from
universal time.

* `isReal` says that the day is in the calendar, the time in the day and the distance less than a day.
* `same` compares moments of one sort: days, times, or instants of universal time.
* `shown` is the text of a moment where it stands for a key.
-/

namespace ApiManual

structure TimeOfDay where
  hour : Nat
  minute : Nat
  second : Nat
  microsecond : Nat := 0
  /-- The minutes by which the clock is ahead of universal time. -/
  offset : Option Int := none
  deriving DecidableEq, Repr, Inhabited

def minutesPerDay : Nat := 24 * 60

def TimeOfDay.isReal (t : TimeOfDay) : Bool :=
  t.hour < 24 && t.minute < 60 && t.second < 60 && t.offset.all (·.natAbs < minutesPerDay)

structure Moment where
  year : Nat
  month : Nat
  day : Nat
  time : Option TimeOfDay := none
  deriving DecidableEq, Repr, Inhabited

namespace Moment

/-! ## The calendar -/

def isLeap (year : Nat) : Bool := year % 4 = 0 && (year % 100 ≠ 0 || year % 400 = 0)

def daysOf (year month : Nat) : Nat :=
  if month = 2 then (if isLeap year then 29 else 28)
  else if month = 4 ∨ month = 6 ∨ month = 9 ∨ month = 11 then 30
  else 31

/-- The days before a year, from the first one on. -/
def daysBefore (year : Nat) : Nat :=
  let past := year - 1
  365 * past + past / 4 - past / 100 + past / 400

/-- The number of a day, counted from the first one. -/
def dayNumber (m : Moment) : Nat :=
  (List.range (m.month - 1)).foldl (fun days i => days + daysOf m.year (i + 1)) (daysBefore m.year) + m.day

def isReal (m : Moment) : Bool :=
  1 ≤ m.year && 1 ≤ m.month && m.month ≤ 12 && 1 ≤ m.day && m.day ≤ daysOf m.year m.month &&
    m.time.all (·.isReal)

/-! ## Comparing -/

/-- The microseconds up to a time on its own clock, without its distance from universal time. -/
def clock (m : Moment) (t : TimeOfDay) : Int :=
  (((m.dayNumber * 24 + t.hour) * 60 + t.minute) * 60 + t.second) * 1000000 + t.microsecond

def same (m n : Moment) : Bool :=
  match m.time, n.time with
  | none, none => m == n
  | some s, some t => match s.offset, t.offset with
    | none, none => m == n
    | some a, some b => m.clock s - a * 60000000 == n.clock t - b * 60000000
    | _, _ => false
  | _, _ => false

/-! ## Texts -/

/-- A distance from universal time, in days and seconds. -/
def offsetText (minutes : Int) : String :=
  if minutes = 0 then "datetime.timezone.utc"
  else
    let days := Int.fdiv minutes minutesPerDay
    let seconds := 60 * Int.fmod minutes minutesPerDay
    let parts := (if days = 0 then [] else [s!"days={days}"]) ++
      (if seconds = 0 then [] else [s!"seconds={seconds}"])
    "datetime.timezone(datetime.timedelta(" ++ ", ".intercalate parts ++ "))"

/-- The numbers of a time without zeros at the end; hour and minute always stay. -/
def timeParts (t : TimeOfDay) : List Nat :=
  t.hour :: t.minute ::
    if t.microsecond ≠ 0 then [t.second, t.microsecond] else if t.second ≠ 0 then [t.second] else []

def shown (m : Moment) : String :=
  let day := s!"{m.year}, {m.month}, {m.day}"
  match m.time with
  | none => "datetime.date(" ++ day ++ ")"
  | some t =>
    let offset := match t.offset with
      | none => ""
      | some minutes => ", tzinfo=" ++ offsetText minutes
    "datetime.datetime(" ++ ", ".intercalate (day :: (timeParts t).map toString) ++ offset ++ ")"

end Moment

end ApiManual
