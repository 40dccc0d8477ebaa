import RuleCheck.Comparison
import RuleCheck.Literal.Duration
import RuleCheck.Literal.Moment
import RuleCheck.Literal.Number
import RuleCheck.Number.DecimalText
import RuleCheck.Scalar

/-!
# Kinds of scalars

For every kind of scalar that rules apply to: its zero, how a literal in a rule is read, and how a
threshold is shown in a failure.
-/

namespace RuleCheck

inductive ScalarKind where
  | text
  | int
  /-- Integers without a sign. -/
  | uint
  | float
  | bool
  | duration
  | timestamp
  deriving DecidableEq, Repr

namespace ScalarKind

def zero : ScalarKind → Scalar
  | text => .text ""
  | int => .int 0
  | uint => .int 0
  | float => .float (.zero false)
  | bool => .bool false
  | duration => .duration ⟨0⟩
  | timestamp => .moment .zero

def read (kind : ScalarKind) (literal : String) : Except Literal.LiteralError Scalar :=
  match kind with
  | text => .ok (.text literal)
  | int => (Literal.readInt literal).map .int
  | uint => (Literal.readUnsigned literal).map .int
  | float => (Literal.readFloat literal).map .float
  | bool => (Literal.readBool literal).map .bool
  | duration => (Literal.readDuration literal).map .duration
  | timestamp => (Literal.readMoment literal).map .moment

def isTime (kind : ScalarKind) : Bool :=
  kind == timestamp

def isOrdered (kind : ScalarKind) : Bool :=
  kind != bool

def supports (kind : ScalarKind) : Operator → Bool
  | .eq | .ne => true
  | _ => kind.isOrdered

end ScalarKind

namespace Scalar

def thresholdText : Scalar → String
  | bool b => if b then "true" else "false"
  | int n => Number.intText n
  | float x => x.fixed
  | text s => "'" ++ s ++ "'"
  | duration d => d.text
  | moment m => m.text

end Scalar

end RuleCheck
