import RuleCheck.Literal.Error
import RuleCheck.Text.Blank
import RuleCheck.Text.Digit
import RuleCheck.Time.Moment

/-!
# Literals of timestamps

The layout follows from the length and from the separators at fixed places: a date of 10 characters,
a date and a time of 19 joined by `T` or a blank, or a longer text with an offset.  A literal without
an offset is in universal time, and an empty one is the first moment of the calendar.

The short layouts read some fields more loosely than they are documented: the second digit of a
field may be of any script, and next to the blank between date and time a field may have one digit
and a further blank.  The long layout cuts the fraction to microseconds.
-/

namespace RuleCheck.Literal

open Text (isBlank isDigit isPlainDigit digitValue? digitsValue)
open Time (Moment)

def readYear? (digits : List Char) : Option Nat :=
  if digits.all isDigit then some (digitsValue digits) else none

def readMonth? : Char → Char → Option Nat
  | '1', d => if d == '0' || d == '1' || d == '2' then some (digitsValue ['1', d]) else none
  | '0', d => if isPlainDigit d && d != '0' then some (digitsValue [d]) else none
  | _, _ => none

/-- A day of two digits from 01 to 31; its tens may be a blank. -/
def readDay? : Char → Char → Option Nat
  | '3', d => if d == '0' || d == '1' then some (digitsValue ['3', d]) else none
  | '0', d => if isPlainDigit d && d != '0' then some (digitsValue [d]) else none
  | ' ', d => if isPlainDigit d && d != '0' then some (digitsValue [d]) else none
  | t, d => if (t == '1' || t == '2') && isDigit d then some (digitsValue [t, d]) else none

/-- A day in front of blanks, which may be a single digit and one of those blanks. -/
def readDayBeforeBlank? (t d : Char) : Option Nat :=
  match readDay? t d with
  | some day => some day
  | none => if isPlainDigit t && t != '0' && isBlank d then some (digitsValue [t]) else none

def readHour? : Char → Char → Option Nat
  | '2', d =>
    if d == '0' || d == '1' || d == '2' || d == '3' then some (digitsValue ['2', d]) else none
  | t, d => if (t == '0' || t == '1') && isDigit d then some (digitsValue [t, d]) else none

/-- An hour after blanks, which may be one of those blanks and a single digit. -/
def readHourAfterBlank? (t d : Char) : Option Nat :=
  match readHour? t d with
  | some hour => some hour
  | none => if isBlank t && isDigit d then some (digitsValue [d]) else none

def readSixty? (t d : Char) : Option Nat :=
  if isPlainDigit t && t.toNat < '6'.toNat && isDigit d then some (digitsValue [t, d]) else none

/-- A moment in universal time, if its date is in the calendar. -/
def universalMoment? (year month day hour minute second : Nat) : Option Moment :=
  if 1 ≤ year && day ≤ Time.monthDays year month then
    some ⟨year, month, day, hour, minute, second, 0, some 0⟩
  else none

def readShort? : List Char → Option Moment
  | [y1, y2, y3, y4, '-', m1, m2, '-', d1, d2] => do
    let year ← readYear? [y1, y2, y3, y4]
    let month ← readMonth? m1 m2
    let day ← readDay? d1 d2
    universalMoment? year month day 0 0 0
  | [y1, y2, y3, y4, '-', m1, m2, '-', d1, d2, 'T', h1, h2, ':', n1, n2, ':', s1, s2] => do
    let year ← readYear? [y1, y2, y3, y4]
    let month ← readMonth? m1 m2
    let day ← readDay? d1 d2
    let hour ← readHour? h1 h2
    let minute ← readSixty? n1 n2
    let second ← readSixty? s1 s2
    universalMoment? year month day hour minute second
  | [y1, y2, y3, y4, '-', m1, m2, '-', d1, d2, ' ', h1, h2, ':', n1, n2, ':', s1, s2] => do
    let year ← readYear? [y1, y2, y3, y4]
    let month ← readMonth? m1 m2
    let day ← readDayBeforeBlank? d1 d2
    let hour ← readHourAfterBlank? h1 h2
    let minute ← readSixty? n1 n2
    let second ← readSixty? s1 s2
    universalMoment? year month day hour minute second
  | _ => none

/-- The fields of the long layout, still as text. -/
structure LongFields where
  year : List Char
  month : List Char
  day : List Char
  hour : List Char
  minute : List Char
  second : List Char
  fraction : List Char
  /-- Whether the offset is behind universal time, and its hours and minutes; none for `Z`. -/
  offset : Option (Bool × List Char × List Char)

def splitOffset? : List Char → Option (Option (Bool × List Char × List Char))
  | ['Z'] => some none
  | [sign, h1, h2, ':', m1, m2] =>
    if (sign == '+' || sign == '-') && [h1, h2, m1, m2].all isDigit then
      some (some (sign == '-', [h1, h2], [m1, m2]))
    else none
  | _ => none

/-- Splits the long layout into its fields, whose digits may be of any script. -/
def splitLong? : List Char → Option LongFields
  | y1 :: y2 :: y3 :: y4 :: '-' :: m1 :: m2 :: '-' :: d1 :: d2 :: 'T' :: h1 :: h2 :: ':' :: n1 ::
      n2 :: ':' :: s1 :: s2 :: tail =>
    if [y1, y2, y3, y4, m1, m2, d1, d2, h1, h2, n1, n2, s1, s2].all isDigit then
      let (fraction, rest) :=
        match tail with
        | '.' :: digits => (digits.takeWhile isDigit, digits.dropWhile isDigit)
        | rest => ([], rest)
      let point := tail.head? == some '.'
      if point && fraction.isEmpty then none
      else
        (splitOffset? rest).map fun offset =>
          ⟨[y1, y2, y3, y4], [m1, m2], [d1, d2], [h1, h2], [n1, n2], [s1, s2], fraction, offset⟩
    else none
  | _ => none

/-- Whether the fields that count are in plain digits; of the fraction these are the first six. -/
def LongFields.isPlain (f : LongFields) : Bool :=
  (f.year ++ f.month ++ f.day ++ f.hour ++ f.minute ++ f.second ++ f.fraction.take 6).all
      isPlainDigit &&
    (match f.offset with
      | none => true
      | some (_, hours, minutes) => (hours ++ minutes).all isPlainDigit)

def LongFields.offsetSeconds (f : LongFields) : Int :=
  match f.offset with
  | none => 0
  | some (behind, hours, minutes) =>
    let seconds := Int.ofNat (3600 * digitsValue hours + 60 * digitsValue minutes)
    if behind then -seconds else seconds

/-- The microseconds of a fraction, what is finer cut off. -/
def fractionMicros (fraction : List Char) : Nat :=
  let digits := fraction.take 6
  digitsValue digits * Nat.pow 10 (6 - digits.length)

/-- The moment of the fields; the first field that is out of range is told, the offset before all. -/
def LongFields.moment (f : LongFields) : Except LiteralError Moment :=
  let offset := f.offsetSeconds
  let year := digitsValue f.year
  let month := digitsValue f.month
  let day := digitsValue f.day
  let hour := digitsValue f.hour
  let minute := digitsValue f.minute
  let second := digitsValue f.second
  if 86400 ≤ offset.natAbs then .error (.offsetTooLarge offset)
  else if year < 1 then .error (.yearOutOfRange year)
  else if month < 1 || 12 < month then .error .monthOutOfRange
  else if day < 1 || Time.monthDays year month < day then .error .dayOutOfRange
  else if 23 < hour then .error .hourOutOfRange
  else if 59 < minute then .error .minuteOutOfRange
  else if 59 < second then .error .secondOutOfRange
  else .ok ⟨year, month, day, hour, minute, second, fractionMicros f.fraction, some offset⟩

def readMoment (text : String) : Except LiteralError Moment :=
  let s := text.toList
  if s.isEmpty then .ok .zero
  else if s.length < 20 then
    match readShort? s with
    | some m => .ok m
    | none => .error (.notTimestamp text)
  else
    match splitLong? s with
    | none => .error (.notTimestamp text)
    | some fields => if fields.isPlain then fields.moment else .error (.oddTimestamp text)

example :
    (readMoment "2024-02-29").toOption = some ⟨2024, 2, 29, 0, 0, 0, 0, some 0⟩ := by
  decide +kernel

end RuleCheck.Literal
