import RuleCheck.Number.Binary64

/-!
# Decimal texts of floating-point numbers

`Binary64.fixed` writes a number with six places, rounded from its exact value.
`Binary64.shortest` writes the fewest digits that read back as the number, and of those the ones
nearest to it: a candidate reads back exactly if it lies among the numbers that round to the given
one, which the halfway points to its two neighbours bound.
-/

namespace RuleCheck.Number

def natText (n : Nat) : String :=
  String.ofList (Nat.toDigits 10 n)

/-- A whole number in decimal digits, with a sign in front if it is negative. -/
def intText (n : Int) : String :=
  if n < 0 then "-" ++ natText n.natAbs else natText n.natAbs

/-- The decimal digits of a number, with zeros in front up to the width. -/
def paddedText (width n : Nat) : String :=
  let digits := Nat.toDigits 10 n
  String.ofList (List.replicate (width - digits.length) '0' ++ digits)

namespace Binary64

/-- The number with six decimal places, a half to the even digit. -/
def fixed (x : Binary64) : String :=
  let sign := if x.negative then "-" else ""
  if x.isNaN then "nan"
  else if x.isInfinite then sign ++ "inf"
  else
    let millionths := roundHalfEven (x.magnitude * Nat.pow 10 6) Point.one
    sign ++ natText (millionths / Nat.pow 10 6) ++ "." ++ paddedText 6 (millionths % Nat.pow 10 6)

/-- Twice the distance between the number and the next greater one, in units of 2 ^ -1075. -/
def gapAbove (x : Binary64) : Nat := Nat.pow 2 x.scale

/-- Twice the distance between the number and the next smaller one, in units of 2 ^ -1075. -/
def gapBelow (x : Binary64) : Nat :=
  if x.fractionField == 0 && 2 ≤ x.exponentField then Nat.pow 2 (x.scale - 1)
  else Nat.pow 2 x.scale

/--
Whether `num / den`, in units of 2 ^ -1074, rounds to the positive finite number: it lies between
the halfway points, which belong to the number with the even pattern.
-/
def roundsTo (x : Binary64) (num den : Nat) : Bool :=
  let low := 2 * x.magnitude - x.gapBelow
  let high := 2 * x.magnitude + x.gapAbove
  let twice := 2 * num
  (low * den < twice || (x.fractionField % 2 == 0 && low * den == twice)) &&
    (twice < high * den || (x.fractionField % 2 == 0 && twice == high * den))

/--
The candidate with `count` significant digits that reads back as the number, as its digits and the
power of ten they are multiplied by.  `tens` is the power of ten of the leading digit.
-/
def candidate? (x : Binary64) (tens : Int) (count : Nat) : Option (Nat × Int) :=
  let power := tens - (Int.ofNat count - 1)
  -- the number and one step of the grid, in units of 2 ^ -1074, over the same denominator
  let num := if power < 0 then x.magnitude * Nat.pow 10 power.natAbs else x.magnitude
  let step := if power < 0 then Point.one else Point.one * Nat.pow 10 power.toNat
  let den := if power < 0 then Nat.pow 10 power.natAbs else 1
  let under := num / step
  let nearest := roundHalfEven num step
  let farther := if nearest = under then under + 1 else under
  if x.roundsTo (nearest * step) den then some (nearest, power)
  else if x.roundsTo (farther * step) den then some (farther, power)
  else none

/-- The power of ten of the leading digit of a positive finite number. -/
def leadingTen (x : Binary64) : Int :=
  if Point.one ≤ x.magnitude then
    Int.ofNat ((Nat.toDigits 10 (x.magnitude / Point.one)).length - 1)
  else
    -- 10 ^ 324 units of the least number are more than one, so the quotient has a digit
    Int.ofNat ((Nat.toDigits 10 (x.magnitude * Nat.pow 10 400 / Point.one)).length - 1) - 400

/-- The first of the counts of digits from the given one on that reads back, 17 at the latest. -/
def shortestFrom (x : Binary64) (tens : Int) : Nat → Nat → Nat × Int
  | 0, _ => (0, 0)
  | tries + 1, count =>
    match x.candidate? tens count with
    | some found => found
    | none => shortestFrom x tens tries (count + 1)

/-- The fewest digits of a positive finite number that read back, and the power of ten. -/
def shortestDigits (x : Binary64) : Nat × Int :=
  shortestFrom x x.leadingTen 17 1

/-- Digits without the zeros at their end, at least one digit, and the power of ten adapted. -/
def dropZeros : Nat → Nat → Int → Nat × Int
  | 0, digits, power => (digits, power)
  | fuel + 1, digits, power =>
    if digits % 10 = 0 && 10 ≤ digits then dropZeros fuel (digits / 10) (power + 1)
    else (digits, power)

/--
The shortest text of a number: positional with a point from 10 ^ -4 up to below 10 ^ 16, otherwise
with a signed exponent of at least two digits.
-/
def shortest (x : Binary64) : String :=
  let sign := if x.negative then "-" else ""
  if x.isNaN then "nan"
  else if x.isInfinite then sign ++ "inf"
  else if x.magnitude = 0 then sign ++ "0.0"
  else
    let (rawDigits, rawPower) := x.shortestDigits
    let (digits, power) := dropZeros 20 rawDigits rawPower
    let text := Nat.toDigits 10 digits
    let count := Int.ofNat text.length
    -- the power of ten of the leading digit
    let tens := power + count - 1
    if tens < -4 || 16 ≤ tens then
      let tail := text.drop 1
      sign ++ String.ofList (text.take 1) ++
        (if tail.isEmpty then "" else "." ++ String.ofList tail) ++
        (if tens < 0 then "e-" else "e+") ++ paddedText 2 tens.natAbs
    else if tens < 0 then
      sign ++ "0." ++ String.ofList (List.replicate (tens.natAbs - 1) '0' ++ text)
    else if 0 ≤ power then
      sign ++ String.ofList (text ++ List.replicate power.toNat '0') ++ ".0"
    else
      let whole := (tens + 1).toNat
      sign ++ String.ofList (text.take whole) ++ "." ++ String.ofList (text.drop whole)

end Binary64

example : (Binary64.ofDecimal false 1 16).shortest = "1e+16" := by decide +kernel

example : (Binary64.ofDecimal false 3 (-1)).shortest = "0.3" := by decide +kernel

end RuleCheck.Number
