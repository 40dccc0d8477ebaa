import RuleCheck.Number.Rounding

/-!
# Decimal numbers of 28 significant digits

A number is a coefficient times a power of ten.  Products and sums are exact and then rounded to
28 significant digits, a half to the even digit; a result of at most 28 digits is exact.
-/

namespace RuleCheck.Number

/-- The number `coefficient * 10 ^ exponent`. -/
structure Decimal28 where
  coefficient : Nat
  exponent : Int
  deriving DecidableEq, Repr

namespace Decimal28

def precision : Nat := 28

/-- The number with at most 28 significant digits nearest to the given one. -/
def rounded (x : Decimal28) : Decimal28 :=
  let excess := (Nat.toDigits 10 x.coefficient).length - precision
  if excess = 0 then x
  else ⟨roundHalfEven x.coefficient (Nat.pow 10 excess), x.exponent + excess⟩

def mul (x y : Decimal28) : Decimal28 :=
  rounded ⟨x.coefficient * y.coefficient, x.exponent + y.exponent⟩

def add (x y : Decimal28) : Decimal28 :=
  let exponent := min x.exponent y.exponent
  rounded
    ⟨x.coefficient * Nat.pow 10 (x.exponent - exponent).toNat +
      y.coefficient * Nat.pow 10 (y.exponent - exponent).toNat, exponent⟩

def whole (x : Decimal28) : Nat :=
  if x.exponent < 0 then x.coefficient / Nat.pow 10 x.exponent.natAbs
  else x.coefficient * Nat.pow 10 x.exponent.toNat

theorem rounded_eq_self {x : Decimal28}
    (hshort : (Nat.toDigits 10 x.coefficient).length ≤ precision) : x.rounded = x := by
  have : (Nat.toDigits 10 x.coefficient).length - precision = 0 := by omega
  simp [rounded, this]

end Decimal28

example : (Decimal28.mul ⟨15, -1⟩ ⟨1000, 0⟩).whole = 1500 := by decide +kernel

end RuleCheck.Number
