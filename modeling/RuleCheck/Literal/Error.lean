import RuleCheck.Text.Quoted
import RuleCheck.Time.Duration

/-!
# Unreadable literals

Why the text of a literal denotes no value.  All reasons but `durationOverflow` lie in the text itself;
that one is a duration that is well written and lies outside of what can be held.
-/

namespace RuleCheck.Literal

inductive LiteralError where
  /-- The text is not a decimal integer. -/
  | notInteger (text : String)
  /-- The text is not a decimal integer without a sign. -/
  | notUnsigned (text : String)
  /-- The integer has more digits than are read. -/
  | tooManyDigits (count : Nat)
  /-- The text is not a floating-point number. -/
  | notFloat (text : String)
  /-- The text spells an infinity in letters that no number uses. -/
  | oddFloat (text : String)
  /-- The text is not one of the spellings of a truth value. -/
  | notBoolean (text : String)
  /-- The text is not a duration. -/
  | notDuration (text : String)
  /-- The text has none of the layouts of a timestamp, or names no real date. -/
  | notTimestamp (text : String)
  /-- The text has the long layout of a timestamp with digits of other scripts. -/
  | oddTimestamp (text : String)
  /-- The offset of a timestamp, in seconds, is a day or more. -/
  | offsetTooLarge (seconds : Int)
  /-- The year of a timestamp is not in the calendar. -/
  | yearOutOfRange (year : Nat)
  /-- The month of a timestamp is not in the calendar. -/
  | monthOutOfRange
  /-- The day of a timestamp is not in its month. -/
  | dayOutOfRange
  /-- The hour of a timestamp is not on the clock. -/
  | hourOutOfRange
  /-- The minute of a timestamp is not on the clock. -/
  | minuteOutOfRange
  /-- The second of a timestamp is not on the clock. -/
  | secondOutOfRange
  /-- The duration is well written and has too many days. -/
  | durationOverflow (overflow : Time.DurationOverflow)
  deriving DecidableEq, Repr

namespace LiteralError

def digitLimit : Nat := 4300

/-- An offset in days and the seconds of a day, the parts that are zero left out. -/
def offsetSpan (seconds : Int) : String :=
  let days := Int.fdiv seconds 86400
  let rest := Int.fmod seconds 86400
  let parts :=
    (if days = 0 then [] else ["days=" ++ Number.intText days]) ++
      (if rest = 0 then [] else ["seconds=" ++ Number.intText rest])
  "datetime.timedelta(" ++ String.intercalate ", " parts ++ ")"

def bitsMessage : String := "Python int too large to convert to C int"

/-- The words for an overflow: beyond 32 bits of days the number itself is not told. -/
def overflowMessage (days : Int) : String :=
  if -2147483648 ≤ days && days ≤ 2147483647 then
    "days=" ++ Number.intText days ++ "; must have magnitude <= 999999999"
  else bitsMessage

def message : LiteralError → String
  | notInteger text => "invalid integer '" ++ text ++ "'"
  | notUnsigned text => "invalid unsigned integer '" ++ text ++ "'"
  | tooManyDigits count =>
      "Exceeds the limit (" ++ Number.natText digitLimit ++
        " digits) for integer string conversion: value has " ++ Number.natText count ++
        " digits; use sys.set_int_max_str_digits() to increase the limit"
  | notFloat text => "invalid float '" ++ text ++ "'"
  | oddFloat text => "could not convert string to float: " ++ Text.quoted text
  | notBoolean text => "invalid boolean '" ++ text ++ "'"
  | notDuration text => "invalid duration '" ++ text ++ "'"
  | notTimestamp text => "cannot parse '" ++ text ++ "' as a timestamp"
  | oddTimestamp text => "Invalid isoformat string: " ++ Text.quoted text
  | offsetTooLarge seconds =>
      "offset must be a timedelta strictly between -timedelta(hours=24) and " ++
        "timedelta(hours=24), not " ++ offsetSpan seconds ++ "."
  | yearOutOfRange year => "year " ++ Number.natText year ++ " is out of range"
  | monthOutOfRange => "month must be in 1..12"
  | dayOutOfRange => "day is out of range for month"
  | hourOutOfRange => "hour must be in 0..23"
  | minuteOutOfRange => "minute must be in 0..59"
  | secondOutOfRange => "second must be in 0..59"
  | durationOverflow overflow => overflowMessage overflow.days

/-- Whether the reason lies in the size of the value and not in how it is written. -/
def isOverflow : LiteralError → Bool
  | durationOverflow _ => true
  | _ => false

end LiteralError

end RuleCheck.Literal
