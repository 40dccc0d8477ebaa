import RuleCheck.Time.Calendar
import RuleCheck.Time.Duration

/-!
# Moments

A moment is a date and a time of day, with or without an offset from universal time.  Two moments
with offsets compare by the instant they denote; one without an offset is never equal to one with.
-/

namespace RuleCheck.Time

/--
A date and a time of day.  The offset from universal time may be missing, and is a fixed number of whole seconds
otherwise: zones in which a time of day can occur twice are left out.
-/
structure Moment where
  year : Nat
  month : Nat
  day : Nat
  hour : Nat
  minute : Nat
  second : Nat
  micro : Nat
  offset : Option Int
  deriving DecidableEq, Repr

namespace Moment

/-- The first moment of the calendar, without an offset. -/
def zero : Moment := ⟨1, 1, 1, 0, 0, 0, 0, none⟩

def bare (m : Moment) : Moment :=
  { m with offset := none }

/-- Whether a moment is the first one of the calendar, whatever its offset. -/
def isZero (m : Moment) : Bool :=
  m.bare = zero

def universal (m : Moment) : Moment :=
  { m with offset := some (m.offset.getD 0) }

/-- Microseconds from the first moment of the calendar, by the clock on the spot. -/
def localMicros (m : Moment) : Int :=
  dayNumber m.year m.month m.day * Duration.day + m.hour * Duration.hour +
    m.minute * Duration.minute + m.second * Duration.second + m.micro

/-- Microseconds from the first moment of the calendar in universal time. -/
def instant (m : Moment) : Int :=
  m.localMicros - m.offset.getD 0 * Duration.second

/-- Whether two moments are equal: both without an offset or both with one, and the same instant. -/
def same (a b : Moment) : Bool :=
  a.offset.isSome == b.offset.isSome && a.instant == b.instant

/-- An offset as sign, hours and minutes, and seconds if there are any. -/
def offsetText (offset : Int) : String :=
  let n := offset.natAbs
  (if offset < 0 then "-" else "+") ++ Number.paddedText 2 (n / 3600) ++ ":" ++
    Number.paddedText 2 (n % 3600 / 60) ++
    (if n % 60 = 0 then "" else ":" ++ Number.paddedText 2 (n % 60))

/-- The text of a moment: date, time, microseconds if there are any, offset if there is one. -/
def text (m : Moment) : String :=
  Number.paddedText 4 m.year ++ "-" ++ Number.paddedText 2 m.month ++ "-" ++
    Number.paddedText 2 m.day ++ " " ++ Number.paddedText 2 m.hour ++ ":" ++
    Number.paddedText 2 m.minute ++ ":" ++ Number.paddedText 2 m.second ++
    (if m.micro = 0 then "" else "." ++ Number.paddedText 6 m.micro) ++
    (match m.offset with
      | none => ""
      | some offset => offsetText offset)

end Moment

example : Moment.zero.text = "0001-01-01 00:00:00" := by decide +kernel

end RuleCheck.Time
