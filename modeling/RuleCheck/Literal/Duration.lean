import RuleCheck.Literal.Error
import RuleCheck.Number.Decimal28
import RuleCheck.Text.Digit

/-!
# Literals of durations

An optional sign and either a single `0` or one or more parts, each a decimal number directly
followed by a unit.  The parts are multiplied and summed with 28 significant digits; what is finer
than a microsecond is cut off, and the sign is applied last.
-/

namespace RuleCheck.Literal

open Number (Decimal28)

/-- The unit at the start of a text, in microseconds, and the text after it. -/
def readUnit? : List Char → Option (Decimal28 × List Char)
  | 'n' :: 's' :: rest => some (⟨1, -3⟩, rest)
  | 'u' :: 's' :: rest => some (⟨1, 0⟩, rest)
  | 'µ' :: 's' :: rest => some (⟨1, 0⟩, rest)
  | 'μ' :: 's' :: rest => some (⟨1, 0⟩, rest)
  | 'm' :: 's' :: rest => some (⟨1000, 0⟩, rest)
  | 's' :: rest => some (⟨1000000, 0⟩, rest)
  | 'm' :: rest => some (⟨60000000, 0⟩, rest)
  | 'h' :: rest => some (⟨3600000000, 0⟩, rest)
  | _ => none

/-- The decimal number at the start of a text, and the text after it. -/
def readAmount? (s : List Char) : Option (Decimal28 × List Char) :=
  let whole := s.takeWhile Text.isDigit
  let (fraction, rest) :=
    match s.dropWhile Text.isDigit with
    | '.' :: tail => (tail.takeWhile Text.isDigit, tail.dropWhile Text.isDigit)
    | tail => ([], tail)
  if whole.isEmpty && fraction.isEmpty then none
  else some (⟨Text.digitsValue (whole ++ fraction), -(Int.ofNat fraction.length)⟩, rest)

/-- The part of a duration at the start of a text, in microseconds, and the text after it. -/
def readPart? (s : List Char) : Option (Decimal28 × List Char) := do
  let (amount, afterAmount) ← readAmount? s
  let (unit, rest) ← readUnit? afterAmount
  return (amount.mul unit, rest)

/-- The sum of a total and all the parts of a text; each part takes at least one character. -/
def sumParts? : Nat → Decimal28 → List Char → Option Decimal28
  | _, total, [] => some total
  | 0, _, _ :: _ => none
  | fuel + 1, total, c :: s => do
    let (part, rest) ← readPart? (c :: s)
    sumParts? fuel (total.add part) rest

def readMicros? (s : List Char) : Option Nat :=
  match s with
  | [] => none
  | ['0'] => some 0
  | s => (sumParts? s.length ⟨0, 0⟩ s).map Decimal28.whole

def readDuration (text : String) : Except LiteralError Time.Duration :=
  let (negative, body) :=
    match text.toList with
    | '-' :: rest => (true, rest)
    | '+' :: rest => (false, rest)
    | s => (false, s)
  match readMicros? body with
  | none => .error (.notDuration text)
  | some micros =>
    (Time.Duration.ofMicros (if negative then -(Int.ofNat micros) else micros)).mapError
      .durationOverflow

example : (readDuration "-1h0m0.5s").toOption = some ⟨-3600500000⟩ := by decide +kernel

end RuleCheck.Literal
