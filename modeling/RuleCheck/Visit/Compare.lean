import RuleCheck.Class
import RuleCheck.Comparison
import RuleCheck.Failure
import RuleCheck.Literal.Number
import RuleCheck.Number.DecimalText
import RuleCheck.RuleSet

/-!
# Checks of comparisons

Comparing a value with a threshold, and the checks of lengths.  A sequence or mapping takes the tokens
on its own length out of its rules, so that they do not reach what is inside.
-/

namespace RuleCheck

namespace Value

/-- Whether an operator holds between a value and a threshold, if the two compare by it. -/
def compare (value : Value) (op : Operator) (threshold : Scalar) : Except Fault Bool :=
  match value.scalar?.bind fun own => own.order? threshold with
  | some order => .ok (op.holds order.less order.equal order.greater)
  | none =>
    match op with
    | .eq => .ok false
    | .ne => .ok true
    | _ =>
      match value.scalar?, threshold with
      | some (.moment _), .moment _ => .error .mixedOffsets
      | _, _ =>
        .error (.unordered op.symbol value.classOf.fullName (Class.builtIn threshold.base).fullName)

/-- The number of items of a value, or the fault that it has no length or too great a one. -/
def lengthOrFault (value : Value) : Except Fault Nat :=
  if value.isOversized then .error .tooLong
  else
    match value.length? with
    | some n => .ok n
    | none => .error (.noLength value.classOf.fullName)

end Value

namespace Literal

def stop (literal token : String) (error : LiteralError) : Stop :=
  match error with
  | .durationOverflow overflow => .fault (.durationOverflow overflow)
  | error => .refuse (.badLiteral literal token error)

end Literal

namespace Comparison

/-- `Comparison.split`, an unknown operator being a refusal. -/
def splitOrStop (token key : String) : Except Stop (Option Comparison) :=
  match split token key with
  | .ok found => .ok found
  | .error op => .error (.refuse (.unknownOperator op.text))

/-- What stops a visit to a value of the given length, if anything. -/
def lengthStop (c : Comparison) (length : Except Fault Nat) : Option Stop :=
  match Literal.readInt c.literal with
  | .error error => some (Literal.stop c.literal c.token error)
  | .ok limit =>
    match length with
    | .error fault => some (.fault fault)
    | .ok length =>
      if c.op.holdsInt length limit then none
      else some (.refuse (.comparison c (Number.intText limit) false))

end Comparison

namespace RuleSet

/-- Checks the tokens on the length of a value and drops them from the rules, one after another. -/
def checkLengthTokens (value : Value) (key : String) :
    List String → RuleSet → Except Stop RuleSet
  | [], remaining => .ok remaining
  | token :: tokens, remaining => do
    match ← Comparison.splitOrStop token key with
    | none => checkLengthTokens value key tokens remaining
    | some c =>
      if value.isNull then .error (.refuse .missing)
      else
        match c.lengthStop value.lengthOrFault with
        | some stop => .error stop
        | none => checkLengthTokens value key tokens (remaining.without token)

/-- The rules that remain once the tokens on the length of a value hold. -/
def checkLength (rules : RuleSet) (value : Value) (key : String) : Except Stop RuleSet :=
  checkLengthTokens value key rules.tokens rules

/-- Whether there is a comparison of a key, if no token before it has an unknown operator. -/
def hasComparison (key : String) : List String → Except Stop Bool
  | [] => .ok false
  | token :: tokens => do
    match ← Comparison.splitOrStop token key with
    | some _ => return true
    | none => hasComparison key tokens

/-- What stops a visit to a missing value whose length is constrained under a key. -/
def missingStop (rules : RuleSet) (key : String) : Option Stop :=
  if rules.required then some (.refuse .missing)
  else
    match hasComparison key rules.tokens with
    | .error stop => some stop
    | .ok true => some (.refuse .missing)
    | .ok false => none

end RuleSet

end RuleCheck
