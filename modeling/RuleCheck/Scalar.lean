import RuleCheck.Number.Binary64
import RuleCheck.Time.Moment

/-!
# Scalars

The values that rules compare and change: truth values, integers, floating-point numbers, texts,
durations and moments.  Truth values count as the integers 0 and 1, and numbers of all kinds compare
by their exact values.
-/

namespace RuleCheck

open Number (Binary64 Point)
open Time (Duration Moment)

inductive Scalar where
  | bool (value : Bool)
  | int (value : Int)
  | float (value : Binary64)
  | text (value : String)
  | duration (value : Duration)
  | moment (value : Moment)
  deriving DecidableEq, Repr

/-- How two values stand to each other; none of the three holds of an undefined number. -/
structure Order where
  less : Bool
  equal : Bool
  greater : Bool
  deriving DecidableEq, Repr

namespace Order

def unrelated : Order := ⟨false, false, false⟩

def ofInts (a b : Int) : Order := ⟨a < b, a == b, b < a⟩

def ofPoints (a b : Point) : Order := ⟨a.lt b, a == b, b.lt a⟩

/-- The order of two texts, by the code points of their characters. -/
def ofTexts (a b : String) : Order := ⟨a < b, a == b, b < a⟩

end Order

namespace Scalar

/-- The place of a number on the exact line: `none` if not a number, `some none` if undefined. -/
def point? : Scalar → Option (Option Point)
  | bool b => some (some (.ofInt (if b then 1 else 0)))
  | int n => some (some (.ofInt n))
  | float x => some x.point?
  | _ => none

/-- How two scalars stand to each other, if they are of kinds that compare. -/
def order? (a b : Scalar) : Option Order :=
  match a, b with
  | text s, text t => some (.ofTexts s t)
  | duration d, duration e => some (.ofInts d.micros e.micros)
  | moment m, moment n =>
    if m.offset.isSome == n.offset.isSome then some (.ofInts m.instant n.instant) else none
  | a, b =>
    match a.point?, b.point? with
    | some (some p), some (some q) => some (.ofPoints p q)
    | some _, some _ => some .unrelated
    | _, _ => none

/-- Whether two scalars are equal; scalars of kinds that do not compare are not. -/
def same (a b : Scalar) : Bool :=
  match a.order? b with
  | some order => order.equal
  | none => false

def isZero : Scalar → Bool
  | bool b => !b
  | int n => n == 0
  | float x => x.isZero
  | text s => s == ""
  | duration d => d.micros == 0
  | moment m => m.isZero

end Scalar

end RuleCheck
