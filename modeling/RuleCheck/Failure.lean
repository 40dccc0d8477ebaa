import RuleCheck.Comparison
import RuleCheck.Literal.Error
import RuleCheck.Pattern.Error

/-!
# Failures and faults

A *failure* is the report that a value was refused: a reason, and the path from the value that was
handed in down to the one that was refused.  A *fault* is anything else that stops a walk; it is no
statement about a value and has no path.
-/

namespace RuleCheck

inductive ReportKind where
  /-- Any error of the library. -/
  | general
  /-- A value was refused. -/
  | validation
  | required
  | comparison
  | ruleFormat
  | mutability
  | hook
  deriving DecidableEq, Repr

namespace ReportKind

def all : List ReportKind :=
  [general, validation, required, comparison, ruleFormat, mutability, hook]

def name : ReportKind → String
  | general => "FieldRulesError"
  | validation => "ValidationError"
  | required => "RequiredError"
  | comparison => "ComparisonError"
  | ruleFormat => "RuleFormatError"
  | mutability => "MutabilityError"
  | hook => "HookError"

def ofName? (name : String) : Option ReportKind :=
  all.find? fun kind => kind.name == name

def defaultMessage : ReportKind → String
  | general => "fieldrules error"
  | required => "value is required"
  | ruleFormat => "malformed rule"
  | mutability => "data must be passed by reference"
  | validation | comparison | hook => "validation failed"

/-- The words given for a report, or those for its kind if there are none. -/
def messageOr (kind : ReportKind) (message : Option String) : String :=
  match message with
  | none | some "" => kind.defaultMessage
  | some message => message

end ReportKind

inductive HookException where
  | value
  | unicode
  | assertion
  | runtime
  | key
  | report (kind : ReportKind)
  deriving DecidableEq, Repr

namespace HookException

def name : HookException → String
  | value => "ValueError"
  | unicode => "UnicodeError"
  | assertion => "AssertionError"
  | runtime => "RuntimeError"
  | key => "KeyError"
  | report kind => kind.name

def ofName? (name : String) : Option HookException :=
  ([value, unicode, assertion, runtime, key] ++ ReportKind.all.map report).find? fun exception =>
    exception.name == name

end HookException

inductive Cause where
  | literal
  | pattern
  | hook (exception : HookException)
  deriving DecidableEq, Repr

def Cause.name : Cause → String
  | literal => "ValueError"
  | pattern => "error"
  | hook exception => exception.name

inductive Reason where
  /-- A text, or a value that is not a scalar, is missing or zero. -/
  | missing
  /-- A scalar other than a text is zero. -/
  | zero
  /-- A comparison with a threshold does not hold. -/
  | comparison (rule : Comparison) (threshold : String) (time : Bool)
  /-- An integer without sign is negative. -/
  | negative
  /-- A text does not match a pattern. -/
  | patternMismatch
  /-- A text is none of the choices. -/
  | notAmong (choices : String)
  /-- A comparison has an operator that does not exist, or not for this kind of value. -/
  | unknownOperator (op : String)
  /-- A literal of a rule denotes no value. -/
  | badLiteral (literal token : String) (error : Literal.LiteralError)
  /-- The pattern of a rule is malformed. -/
  | badPattern (text : String) (reason : Pattern.Malformed)
  /-- Rules are redirected to a field that does not exist. -/
  | unknownField (name : String)
  /-- A rule had to change a value that nothing mutable holds. -/
  | notWritable
  /-- A hook refused a record. -/
  | hookRefused (message : String) (exception : HookException)
  /-- A hook made a report of its own. -/
  | reported (kind : ReportKind) (message : String)
  deriving DecidableEq, Repr

namespace Reason

def kind : Reason → ReportKind
  | missing | zero => .required
  | comparison .. | negative | patternMismatch | notAmong _ => .comparison
  | unknownOperator _ | badLiteral .. | badPattern .. | unknownField _ => .ruleFormat
  | notWritable => .mutability
  | hookRefused .. => .hook
  | reported kind _ => kind

def message : Reason → String
  | missing => ReportKind.required.defaultMessage
  | zero => "non-zero value is required"
  | comparison rule threshold time => rule.describe threshold time
  | negative => "must be greater than or equal to 0"
  | patternMismatch => "value doesn't match required pattern"
  | notAmong choices => "value must be one of " ++ choices
  | unknownOperator op => "unsupported operator '" ++ op ++ "'"
  | badLiteral literal token _ => "invalid literal '" ++ literal ++ "' in rule '" ++ token ++ "'"
  | badPattern text reason => "invalid pattern '" ++ text ++ "': " ++ reason.message text
  | unknownField name => "unknown field '" ++ name ++ "'"
  | notWritable => ReportKind.mutability.defaultMessage
  | hookRefused message _ => message
  | reported kind message => kind.messageOr (some message)

/-- Further words on a reason, each under a name. -/
def details : Reason → List (String × String)
  | badLiteral _ _ error => [("reason", error.message)]
  | _ => []

def cause : Reason → Option Cause
  | badLiteral .. => some .literal
  | badPattern .. => some .pattern
  | hookRefused _ exception => some (.hook exception)
  | _ => none

end Reason

namespace Path

/--
A path as an expression: indexes and keys in brackets follow directly, names follow a point unless
nothing is in front of them.
-/
def location (path : List String) : String :=
  path.foldl
    (fun text segment =>
      if Text.startsWith segment "[" then text ++ segment
      else if text == "" then segment
      else text ++ "." ++ segment)
    ""

/-- A path and a message, separated by colons. -/
def describe (path : List String) (message : String) : String :=
  String.intercalate ": " (path ++ [message])

def index (i : Nat) : String :=
  "[" ++ Number.natText i ++ "]"

def key (text : String) : String :=
  "[" ++ text ++ "]"

end Path

structure Failure where
  reason : Reason
  /-- The segments from the value that was handed in down to the one that was refused. -/
  path : List String
  deriving DecidableEq, Repr

namespace Failure

def under (failure : Failure) (segment : String) : Failure :=
  { failure with path := segment :: failure.path }

def text (failure : Failure) : String :=
  Path.describe failure.path failure.reason.message

end Failure

inductive FaultKind where
  | overflow
  | value
  | access
  | type
  | runtime
  | key
  | frozenField
  | recursion
  | report
  deriving DecidableEq, Repr

def FaultKind.name : FaultKind → String
  | overflow => "OverflowError"
  | value => "ValueError"
  | access => "AttributeError"
  | type => "TypeError"
  | runtime => "RuntimeError"
  | key => "KeyError"
  | frozenField => "FrozenInstanceError"
  | recursion => "RecursionError"
  | report => ReportKind.general.name

inductive Fault where
  /-- A duration in a rule has too many days. -/
  | durationOverflow (overflow : Time.DurationOverflow)
  /-- A repetition count in a pattern is beyond all bounds. -/
  | repetitionTooLarge
  /-- A repetition count in a pattern has more digits than are read. -/
  | tooManyDigits (count : Nat)
  /-- A code point in a pattern does not even fit 32 bits with a sign. -/
  | codeTooLarge
  /-- The settings of a pattern exclude each other. -/
  | exclusiveFlags
  /-- A class has no such member. -/
  | noAttribute (className member : String)
  /-- Two classes cannot be compared by an operator. -/
  | unordered (op left right : String)
  /-- A moment with an offset cannot be compared with one without. -/
  | mixedOffsets
  /-- A class has no length. -/
  | noLength (className : String)
  /-- A sequence has more items than can be told. -/
  | tooLong
  /-- A class has no items. -/
  | notIterable (className : String)
  /-- A class cannot be searched by a pattern. -/
  | notText (className : String)
  /-- A class is not one of records; it is given as it is shown. -/
  | notRecord (display : String)
  /-- A field has the name of a hook, and a class cannot be called. -/
  | notCallable (className : String)
  /-- A hook assigned a field that is fixed. -/
  | frozenField (name : String)
  /-- A hook assigned a field of a tuple. -/
  | tupleField
  /-- A hook raised something that is no refusal. -/
  | raised (exception : HookException) (message : String)
  /-- The walk went deeper than the value and what is declared of it allow. -/
  | tooDeep
  deriving DecidableEq, Repr

namespace Fault

def kind : Fault → FaultKind
  | durationOverflow _ | repetitionTooLarge | codeTooLarge | tooLong => .overflow
  | tooManyDigits _ | exclusiveFlags => .value
  | noAttribute .. | tupleField => .access
  | unordered .. | mixedOffsets | noLength _ | notIterable _ | notText _ | notRecord _ | notCallable _ =>
    .type
  | frozenField _ => .frozenField
  | raised exception _ =>
    match exception with
    | .value | .unicode | .assertion => .value
    | .runtime => .runtime
    | .key => .key
    | .report _ => .report
  | tooDeep => .recursion

def message : Fault → String
  | durationOverflow overflow => (Literal.LiteralError.durationOverflow overflow).message
  | repetitionTooLarge => "the repetition number is too large"
  | tooManyDigits count => (Literal.LiteralError.tooManyDigits count).message
  | codeTooLarge => Literal.LiteralError.bitsMessage
  | exclusiveFlags => "ASCII and UNICODE flags are incompatible"
  | noAttribute className member =>
      "'" ++ className ++ "' object has no attribute '" ++ member ++ "'"
  | unordered op left right =>
      "'" ++ op ++ "' not supported between instances of '" ++ left ++ "' and '" ++ right ++ "'"
  | mixedOffsets => "can't compare offset-naive and offset-aware datetimes"
  | noLength className => "object of type '" ++ className ++ "' has no len()"
  | tooLong => "Python int too large to convert to C ssize_t"
  | notIterable className => "'" ++ className ++ "' object is not iterable"
  | notText className => "expected string or bytes-like object, got '" ++ className ++ "'"
  | notRecord display => display ++ " is not a record type"
  | notCallable className => "'" ++ className ++ "' object is not callable"
  | frozenField name => "cannot assign to field '" ++ name ++ "'"
  | tupleField => "can't set attribute"
  | raised _ message => message
  | tooDeep => "maximum recursion depth exceeded"

end Fault

/-- What stops a walk. -/
inductive Stop where
  | failed (failure : Failure)
  | fault (fault : Fault)
  deriving DecidableEq, Repr

namespace Stop

def refuse (reason : Reason) : Stop :=
  .failed ⟨reason, []⟩

/-- What stopped a walk, seen from one level further up. -/
def under (segment : String) : Stop → Stop
  | failed failure => .failed (failure.under segment)
  | fault cause => .fault cause

end Stop

end RuleCheck
