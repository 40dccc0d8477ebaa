import RuleCheck.Number.DecimalText

/-!
# Durations

A duration is a whole number of microseconds of either sign; the days it spans are bounded.
`Duration.text` writes it in units: microseconds or milliseconds below one second, otherwise hours,
minutes and seconds, the larger units left out while they are zero.
-/

namespace RuleCheck.Time

structure Duration where
  micros : Int
  deriving DecidableEq, Repr

/-- A span of time that cannot be held, by the days it has. -/
structure DurationOverflow where
  days : Int
  deriving DecidableEq, Repr

namespace Duration

def second : Nat := 1000000

def minute : Nat := 60 * second

def hour : Nat := 60 * minute

def day : Nat := 24 * hour

/-- The greatest number of days that a duration may have, of either sign. -/
def maxDays : Int := 999999999

/-- The whole days of a duration, rounded down. -/
def days (d : Duration) : Int :=
  Int.fdiv d.micros day

/-- The duration of a number of microseconds, if its days are within bounds. -/
def ofMicros (micros : Int) : Except DurationOverflow Duration :=
  let d : Duration := ⟨micros⟩
  if -maxDays ≤ d.days && d.days ≤ maxDays then .ok d else .error ⟨d.days⟩

def dropEndZeros (digits : List Char) : List Char :=
  (digits.reverse.dropWhile (· == '0')).reverse

/-- A quotient by a unit of `10 ^ places`, with as many decimal places as it needs. -/
def fractionText (places amount : Nat) : String :=
  let unit := Nat.pow 10 places
  let part := amount % unit
  if part = 0 then Number.natText (amount / unit)
  else
    Number.natText (amount / unit) ++ "." ++
      String.ofList (dropEndZeros (Number.paddedText places part).toList)

def amountText (micros : Nat) : String :=
  if micros = 0 then "0s"
  else if micros < 1000 then Number.natText micros ++ "µs"
  else if micros < second then fractionText 3 micros ++ "ms"
  else
    let hours := micros / hour
    let minutes := micros % hour / minute
    let seconds := fractionText 6 (micros % minute) ++ "s"
    if 0 < hours then
      Number.natText hours ++ "h" ++ Number.natText minutes ++ "m" ++ seconds
    else if 0 < minutes then Number.natText minutes ++ "m" ++ seconds
    else seconds

def text (d : Duration) : String :=
  (if d.micros < 0 then "-" else "") ++ amountText d.micros.natAbs

/--
The text of a duration as days and a clock time: the days, rounded down, if there are any, then
hours, minutes and seconds, and microseconds if there are any.
-/
def clockText (d : Duration) : String :=
  let rest := (Int.fmod d.micros day).toNat
  let clock :=
    Number.natText (rest / hour) ++ ":" ++ Number.paddedText 2 (rest % hour / minute) ++ ":" ++
      Number.paddedText 2 (rest % minute / second) ++
      (if rest % second = 0 then "" else "." ++ Number.paddedText 6 (rest % second))
  if d.days = 0 then clock
  else
    Number.intText d.days ++ (if d.days.natAbs = 1 then " day, " else " days, ") ++ clock

end Duration

example : (Duration.mk 3600000000).text = "1h0m0s" := by decide +kernel

example : (Duration.mk (-90000001)).text = "-1m30.000001s" := by decide +kernel

end RuleCheck.Time
