import RuleCheck.Number.Rounding

/-!
# Binary floating-point numbers of 64 bits

A number is its bit pattern.  Every finite one is a whole multiple of the least positive one,
2 ^ -1074, so `point?` places all numbers but the undefined one exactly on a line of whole numbers
with an end on either side, and comparison is comparison of places on that line.  `ofRatio` goes the
other way: it rounds a quotient to the nearest number, a half to the even pattern.
-/

namespace RuleCheck.Number

/-- A binary floating-point number of 64 bits: sign, 11 bits of exponent, 52 bits of fraction. -/
structure Binary64 where
  bits : UInt64
  deriving DecidableEq, Repr

/-- A place on the line of exact numbers, in units of 2 ^ -1074. -/
inductive Point where
  | below
  | at (units : Int)
  | above
  deriving DecidableEq, Repr

namespace Point

def one : Nat := Nat.pow 2 1074

def ofInt (n : Int) : Point :=
  .at (n * one)

def lt : Point → Point → Bool
  | .below, .below => false
  | .below, _ => true
  | .at _, .below => false
  | .at a, .at b => a < b
  | .at _, .above => true
  | .above, _ => false

end Point

namespace Binary64

def negative (x : Binary64) : Bool :=
  x.bits.toNat / Nat.pow 2 63 % 2 == 1

def exponentField (x : Binary64) : Nat :=
  x.bits.toNat / Nat.pow 2 52 % Nat.pow 2 11

def fractionField (x : Binary64) : Nat :=
  x.bits.toNat % Nat.pow 2 52

def isNaN (x : Binary64) : Bool :=
  x.exponentField == 2047 && x.fractionField != 0

def isInfinite (x : Binary64) : Bool :=
  x.exponentField == 2047 && x.fractionField == 0

def significand (x : Binary64) : Nat :=
  if x.exponentField == 0 then x.fractionField else Nat.pow 2 52 + x.fractionField

/-- The power of two, counted from 2 ^ -1074, that the significand is multiplied by. -/
def scale (x : Binary64) : Nat :=
  x.exponentField - 1

/-- The distance of a finite number from zero in units of 2 ^ -1074. -/
def magnitude (x : Binary64) : Nat :=
  x.significand * Nat.pow 2 x.scale

/-- The place of a number on the line; none for the undefined one. -/
def point? (x : Binary64) : Option Point :=
  if x.isNaN then none
  else if x.isInfinite then some (if x.negative then .below else .above)
  else some (.at (if x.negative then -(Int.ofNat x.magnitude) else Int.ofNat x.magnitude))

/-- The number with the given sign bit and the given pattern of the other bits. -/
def ofFields (negative : Bool) (pattern : Nat) : Binary64 :=
  ⟨UInt64.ofNat (pattern + if negative then Nat.pow 2 63 else 0)⟩

/-- The pattern of an infinity, sign bit aside. -/
def infinityPattern : Nat := 2047 * Nat.pow 2 52

def infinity (negative : Bool) : Binary64 :=
  ofFields negative infinityPattern

/-- The undefined number, as a literal writes it. -/
def nan (negative : Bool) : Binary64 :=
  ofFields negative (infinityPattern + Nat.pow 2 51)

def zero (negative : Bool) : Binary64 :=
  ofFields negative 0

/--
The power of two, as an integer, that the significand of the number nearest to `num / den` is
multiplied by before a carry: the one that leaves 53 bits, but never below -1074.
-/
def exponentFor (num den : Nat) : Int :=
  let least : Int := -1074
  let start := max least (Int.ofNat num.log2 - Int.ofNat den.log2 - 53)
  let shifted :=
    if start < 0 then num * Nat.pow 2 start.natAbs / den
    else num / (den * Nat.pow 2 start.toNat)
  if shifted < Nat.pow 2 53 then start else start + 1

/-- The number nearest to `num / den`; a half goes to the even pattern, too large a one to infinity. -/
def ofRatio (negative : Bool) (num den : Nat) : Binary64 :=
  if num = 0 then zero negative
  else
    let e := exponentFor num den
    let q :=
      if e < 0 then roundHalfEven (num * Nat.pow 2 e.natAbs) den
      else roundHalfEven num (den * Nat.pow 2 e.toNat)
    ofFields negative (min ((e + 1074).toNat * Nat.pow 2 52 + q) infinityPattern)

def ofDecimal (negative : Bool) (digits : Nat) (exponent : Int) : Binary64 :=
  -- the number of decimal digits in front of the point decides the sizes that need no arithmetic
  let size := Int.ofNat (Nat.toDigits 10 digits).length + exponent
  if digits = 0 || size < -330 then zero negative
  else if 330 < size then infinity negative
  else if exponent < 0 then ofRatio negative digits (Nat.pow 10 exponent.natAbs)
  else ofRatio negative (digits * Nat.pow 10 exponent.toNat) 1

/-- Whether a number equals zero, of either sign. -/
def isZero (x : Binary64) : Bool :=
  x.point? == some (.at 0)

end Binary64

example : (Binary64.ofDecimal false 1 (-1)).bits = 0x3FB999999999999A := by decide +kernel

example : (Binary64.ofDecimal true 5 (-324)).bits = 0x8000000000000001 := by decide +kernel

end RuleCheck.Number
