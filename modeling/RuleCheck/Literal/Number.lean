import RuleCheck.Literal.Error
import RuleCheck.Number.DecimalText
import RuleCheck.Text.Digit

/-!
# Literals of numbers and truth values

Integers are an optional sign and plain decimal digits; unsigned ones have no sign.  Floating-point
numbers have a point, an exponent or both, or are an infinity or the undefined number in letters of
either case.  Truth values have six spellings each.
-/

namespace RuleCheck.Literal

open Text (isPlainDigit digitsValue)

/-- A text without its sign, and whether the sign was a minus. -/
def splitSign : List Char → Bool × List Char
  | '-' :: rest => (true, rest)
  | '+' :: rest => (false, rest)
  | s => (false, s)

/-- The number written by plain digits, unless there are too many of them. -/
def readDigits (digits : List Char) : Except LiteralError Nat :=
  if LiteralError.digitLimit < digits.length then .error (.tooManyDigits digits.length)
  else .ok (digitsValue digits)

/-- Reads an integer: an optional sign and one or more digits. -/
def readInt (text : String) : Except LiteralError Int :=
  let (negative, digits) := splitSign text.toList
  if digits.isEmpty || !digits.all isPlainDigit then .error (.notInteger text)
  else (readDigits digits).map fun n => if negative then -(Int.ofNat n) else Int.ofNat n

def readUnsigned (text : String) : Except LiteralError Int :=
  let digits := text.toList
  if digits.isEmpty || !digits.all isPlainDigit then .error (.notUnsigned text)
  else (readDigits digits).map Int.ofNat

/-- The exponent of a floating-point literal; `none` if the text is not one. -/
def readExponent? : List Char → Option Int
  | [] => some 0
  | c :: rest =>
    let (negative, digits) := splitSign rest
    if (c == 'e' || c == 'E') && !digits.isEmpty && digits.all isPlainDigit then
      let n := Int.ofNat (digitsValue digits)
      some (if negative then -n else n)
    else none

/-- Reads digits with an optional point and exponent, the sign being known. -/
def readPositional? (negative : Bool) (s : List Char) : Option Number.Binary64 :=
  let whole := s.takeWhile isPlainDigit
  let afterWhole := s.dropWhile isPlainDigit
  let (fraction, rest) :=
    match afterWhole with
    | '.' :: tail => (tail.takeWhile isPlainDigit, tail.dropWhile isPlainDigit)
    | tail => ([], tail)
  if whole.isEmpty && fraction.isEmpty then none
  else
    (readExponent? rest).map fun exponent =>
      .ofDecimal negative (digitsValue (whole ++ fraction)) (exponent - fraction.length)

/-- The letter of a spelling that ignores case, of the letters that fold to a plain one. -/
def plainLetter (c : Char) : Char :=
  if c.toNat == 0x130 || c.toNat == 0x131 then 'i' else c.toLower

def readFloat (text : String) : Except LiteralError Number.Binary64 :=
  let (negative, body) := splitSign text.toList
  match readPositional? negative body with
  | some x => .ok x
  | none =>
    let word := String.ofList (body.map plainLetter)
    if word == "inf" || word == "infinity" || word == "nan" then
      if body.any fun c => c.toNat == 0x130 || c.toNat == 0x131 then .error (.oddFloat text)
      else if word == "nan" then .ok (.nan negative)
      else .ok (.infinity negative)
    else .error (.notFloat text)

def trueWords : List String := ["1", "t", "T", "TRUE", "true", "True"]

def falseWords : List String := ["0", "f", "F", "FALSE", "false", "False"]

def readBool (text : String) : Except LiteralError Bool :=
  if trueWords.contains text then .ok true
  else if falseWords.contains text then .ok false
  else .error (.notBoolean text)

example : (readInt "-12").toOption = some (-12) := by decide +kernel

example : (readUnsigned "+1").toOption = none := by decide +kernel

end RuleCheck.Literal
