import ModuleSurface.Double.Layout

/-! # Days and points in time

A document may hold days of the calendar, and points in time with or without the zone in which they
are told. Two points with zones are the same when they fall together, and one without a zone is
the same as no point that has one. -/

namespace ModuleSurface

/-- Whether a year has a leap day. -/
def isLeapYear (year : Nat) : Bool := year % 4 == 0 && (year % 100 != 0 || year % 400 == 0)

/-- How many days a month has. -/
def daysInMonth (year month : Nat) : Nat :=
  if month = 2 then (if isLeapYear year then 29 else 28)
  else if month = 4 ∨ month = 6 ∨ month = 9 ∨ month = 11 then 30
  else 31

/-- **The days of the calendar**, from the year one to the year 9999. -/
def IsDay (year month day : Nat) : Prop :=
  1 ≤ year ∧ year ≤ 9999 ∧ 1 ≤ month ∧ month ≤ 12 ∧ 1 ≤ day ∧ day ≤ daysInMonth year month

instance (year month day : Nat) : Decidable (IsDay year month day) :=
  inferInstanceAs (Decidable (_ ∧ _))

/-- **A day** of the calendar. -/
structure Day where
  year : Nat
  month : Nat
  day : Nat
  isDay : IsDay year month day
deriving DecidableEq

namespace Day

/-- The day of three numbers, if there is one. -/
def ofParts? (year month day : Nat) : Option Day :=
  if isDay : IsDay year month day then some ⟨year, month, day, isDay⟩ else none

/-- How many days of a year lie before one of its months. -/
def daysBeforeMonth (year month : Nat) : Nat :=
  (List.range (month - 1)).foldl (fun days earlier => days + daysInMonth year (earlier + 1)) 0

/-- The number of a day, counted from the first one. -/
def number (d : Day) : Nat :=
  let years := d.year - 1
  years * 365 + years / 4 - years / 100 + years / 400 + daysBeforeMonth d.year d.month + d.day

/-- A day is built back from its parts by `ofParts?`. -/
@[simp] theorem ofParts?_parts (d : Day) : ofParts? d.year d.month d.day = some d := by
  simp [ofParts?, d.isDay]

end Day

/-- **The times of a day** and the zones in which they are told, less than a day away from the zero
zone. -/
def IsTime (hour minute second micro : Nat) (zone : Option Int) : Prop :=
  hour < 24 ∧ minute < 60 ∧ second < 60 ∧ micro < 1000000 ∧ (zone.getD 0).natAbs < 24 * 60

instance (hour minute second micro : Nat) (zone : Option Int) :
    Decidable (IsTime hour minute second micro zone) :=
  inferInstanceAs (Decidable (_ ∧ _))

/-- **A time of day**, to the millionth of a second, and its zone in minutes, if one is given. -/
structure Time where
  hour : Nat
  minute : Nat
  second : Nat
  micro : Nat
  zone : Option Int
  isTime : IsTime hour minute second micro zone
deriving DecidableEq

/-- The time of its parts, if there is one. -/
def Time.ofParts? (hour minute second micro : Nat) (zone : Option Int) : Option Time :=
  if isTime : IsTime hour minute second micro zone then
    some ⟨hour, minute, second, micro, zone, isTime⟩
  else none

/-- **A day, or a point in time.** -/
inductive Moment
  | day (d : Day)
  | point (d : Day) (t : Time)
deriving DecidableEq

namespace Moment

/-- The millionths of seconds that a point lies behind the start of the calendar in the zero
zone. -/
def micros (d : Day) (t : Time) : Int :=
  let minutes : Int := ((d.number * 24 + t.hour) * 60 + t.minute : Nat)
  ((minutes - t.zone.getD 0) * 60 + t.second) * 1000000 + t.micro

/-- Whether two moments are the same. -/
def same : Moment → Moment → Bool
  | .day d, .day e => d == e
  | .point d t, .point e u => t.zone.isSome == u.zone.isSome && micros d t == micros e u
  | _, _ => false

/-! ## Texts of moments -/

/-- A number in decimal digits, padded with zeros to a width. -/
def padded (width n : Nat) : String :=
  let digits := Decimal.digitChars n
  String.ofList (NumberLayout.zeros (width - digits.length) ++ digits)

/-- The text of a day. -/
def dayText (d : Day) : String :=
  padded 4 d.year ++ "-" ++ padded 2 d.month ++ "-" ++ padded 2 d.day

/-- The text of a zone: its distance in hours and minutes. -/
def zoneText (minutes : Int) : String :=
  (if minutes < 0 then "-" else "+") ++ padded 2 (minutes.natAbs / 60) ++ ":"
    ++ padded 2 (minutes.natAbs % 60)

/-- The text of a time. Parts of a second are left out when there are none. -/
def timeText (t : Time) : String :=
  padded 2 t.hour ++ ":" ++ padded 2 t.minute ++ ":" ++ padded 2 t.second
    ++ (if t.micro = 0 then "" else "." ++ padded 6 t.micro) ++ (t.zone.map zoneText).getD ""

/-- **The text of a moment.** -/
def text : Moment → String
  | .day d => dayText d
  | .point d t => dayText d ++ " " ++ timeText t

/-- The numbers that a display lists. -/
def listed (numbers : List Nat) : String := String.intercalate ", " (numbers.map toString)

/-- How a zone is shown: the zero zone by its name, any other as the seconds of its distance, which
are counted from a day earlier where it is negative. -/
def zoneDisplay (minutes : Int) : String :=
  if minutes = 0 then "datetime.timezone.utc"
  else
    let distance := if minutes < 0 then s!"days=-1, seconds={(minutes + 24 * 60) * 60}"
      else s!"seconds={minutes * 60}"
    s!"datetime.timezone(datetime.timedelta({distance}))"

/-- **How a moment is shown in a message**: by its parts, of which trailing zero seconds are left
out. -/
def display : Moment → String
  | .day d => s!"datetime.date({listed [d.year, d.month, d.day]})"
  | .point d t =>
    let seconds := if t.micro ≠ 0 then [t.second, t.micro]
      else if t.second ≠ 0 then [t.second] else []
    let zone := (t.zone.map fun minutes => ", tzinfo=" ++ zoneDisplay minutes).getD ""
    s!"datetime.datetime({listed ([d.year, d.month, d.day, t.hour, t.minute] ++ seconds)}{zone})"

/-- The name of a moment's type, as messages spell it. -/
def typeName : Moment → String
  | .day _ => "date"
  | .point .. => "datetime"

end Moment

end ModuleSurface
