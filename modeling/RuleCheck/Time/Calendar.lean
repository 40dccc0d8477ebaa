/-!
# The calendar

Dates of the years 1 to 9999 by the rule of leap years that holds today, extended to all of them.
`dayNumber` counts days from the first of January of the year 1, which has number 0.
-/

namespace RuleCheck.Time

def isLeap (year : Nat) : Bool :=
  year % 4 == 0 && (year % 100 != 0 || year % 400 == 0)

def monthDays (year month : Nat) : Nat :=
  match month with
  | 2 => if isLeap year then 29 else 28
  | 4 | 6 | 9 | 11 => 30
  | _ => 31

def daysBeforeMonth (year : Nat) : Nat → Nat
  | 0 => 0
  | 1 => 0
  | month + 1 => daysBeforeMonth year month + monthDays year month

def daysBeforeYear (year : Nat) : Nat :=
  let y := year - 1
  365 * y + y / 4 - y / 100 + y / 400

/-- The number of a day, the first day of the year 1 being number 0. -/
def dayNumber (year month day : Nat) : Nat :=
  daysBeforeYear year + daysBeforeMonth year month + (day - 1)

example : dayNumber 1 1 1 = 0 := by decide

example : dayNumber 2000 3 1 = dayNumber 2000 2 29 + 1 := by decide

end RuleCheck.Time
