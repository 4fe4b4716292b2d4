import OptimalAssignment.Text.Literal

/-!
Days and times of day. A moment is a calendar day, or a day with a time and perhaps a distance from
universal time. Texts follow the international order from year to second.
-/
namespace OptimalAssignment

/-- A time of day; the offset from universal time counts seconds. -/
structure Clock where
  hour : Nat
  minute : Nat
  second : Nat
  micros : Nat
  offset : Option Int
deriving Repr, DecidableEq

/-- A day, perhaps with a time. -/
structure Moment where
  year : Nat
  month : Nat
  day : Nat
  clock : Option Clock
deriving Repr, DecidableEq

namespace Moment

def isLeap (year : Nat) : Bool :=
  year % 4 == 0 && (year % 100 != 0 || year % 400 == 0)

def daysIn (year month : Nat) : Nat :=
  if month = 2 then if isLeap year then 29 else 28
  else if month = 4 ∨ month = 6 ∨ month = 9 ∨ month = 11 then 30 else 31

def isValid (m : Moment) : Bool :=
  1 ≤ m.year && m.year ≤ 9999 && 1 ≤ m.month && m.month ≤ 12 && 1 ≤ m.day
    && m.day ≤ daysIn m.year m.month
    && m.clock.all fun c =>
      c.hour < 24 && c.minute < 60 && c.second < 60 && c.micros < 1000000
        && c.offset.all (·.natAbs < 86400)

def padded (width n : Nat) : String :=
  let cs := Nat.toDigits 10 n
  String.ofList (List.replicate (width - cs.length) '0' ++ cs)

/-- An offset as sign, hours and minutes, and seconds if there are any. -/
def offsetText (offset : Int) : String :=
  let n := offset.natAbs
  (if offset < 0 then "-" else "+") ++ padded 2 (n / 3600) ++ ":" ++ padded 2 (n / 60 % 60)
    ++ (if n % 60 = 0 then "" else ":" ++ padded 2 (n % 60))

/-- A time of day; fractions of a second are shown if there are any. -/
def clockText (c : Clock) : String :=
  padded 2 c.hour ++ ":" ++ padded 2 c.minute ++ ":" ++ padded 2 c.second
    ++ (if c.micros = 0 then "" else "." ++ padded 6 c.micros)
    ++ c.offset.elim "" offsetText

def textWith (mark : String) (m : Moment) : String :=
  padded 4 m.year ++ "-" ++ padded 2 m.month ++ "-" ++ padded 2 m.day
    ++ m.clock.elim "" fun c => mark ++ clockText c

def isoText (m : Moment) : String :=
  m.textWith "T"

/-- A span of seconds as days and the seconds of a day. -/
def spanLiteral (offset : Int) : String :=
  let days := Int.fdiv offset 86400
  let seconds := Int.fmod offset 86400
  let parts := (if days = 0 then [] else [s!"days={days}"])
    ++ (if seconds = 0 then [] else [s!"seconds={seconds}"])
  "datetime.timedelta(" ++ (if parts.isEmpty then "0" else String.intercalate ", " parts) ++ ")"

/-- The literal of a moment: its parts in order, without zeros of the seconds at the end. -/
def literal (m : Moment) : String :=
  match m.clock with
  | none => s!"datetime.date({m.year}, {m.month}, {m.day})"
  | some c =>
    let small :=
      if c.micros ≠ 0 then [c.second, c.micros] else if c.second ≠ 0 then [c.second] else []
    let parts := ([m.year, m.month, m.day, c.hour, c.minute] ++ small).map toString
    let zone :=
      match c.offset with
      | none => ""
      | some 0 => ", tzinfo=datetime.timezone.utc"
      | some k => s!", tzinfo=datetime.timezone({spanLiteral k})"
    "datetime.datetime(" ++ String.intercalate ", " parts ++ zone ++ ")"

def daysBefore (year : Nat) : Nat :=
  let past := year - 1
  365 * past + past / 4 - past / 100 + past / 400

/-- The number of days up to a day of the calendar. -/
def dayNumber (m : Moment) : Nat :=
  daysBefore m.year + ((List.range (m.month - 1)).map fun k => daysIn m.year (k + 1)).foldl (· + ·) 0
    + m.day

/-- The instant of a moment that knows its distance from universal time, in millionths of a
second. -/
def instant? (m : Moment) : Option Int :=
  m.clock.bind fun c => c.offset.map fun offset =>
    let seconds : Int := 86400 * m.dayNumber + 3600 * c.hour + 60 * c.minute + c.second - offset
    1000000 * seconds + c.micros

/-- Whether two moments are the same: the same instant if both know their distance from universal
time, the same parts otherwise. -/
def same (m n : Moment) : Bool :=
  match m.instant?, n.instant? with
  | some a, some b => a == b
  | _, _ => m == n

end Moment

end OptimalAssignment
