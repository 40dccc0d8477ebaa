import RuleCheck.Pattern.Matching
import RuleCheck.Pattern.Parser
import RuleCheck.ScalarKind
import RuleCheck.Text.Case
import RuleCheck.Value.Equality
import RuleCheck.Visit
import RuleCheck.Visit.Compare

/-!
# Visits to scalars

A scalar is settled first: a missing value is taken for the zero of its kind, a text is trimmed and
its case folded, and a zero gives way to the default.  What was settled is written if it differs.
Then come the checks: `required`, the sign of an unsigned integer, and the tokens in their order.
-/

namespace RuleCheck

namespace RuleSet

def keepBlanksToken : String := "notrim"

def capitalsToken : String := "toupper"

def smallsToken : String := "tolower"

/-- A text as the rules want it: without blanks around it, in capitals or small letters. -/
def foldText (rules : RuleSet) (s : String) : String :=
  let s := if rules.has keepBlanksToken then s else Text.strip s
  if rules.has capitalsToken then Text.upper s
  else if rules.has smallsToken then Text.lower s
  else s

def foldOperation? (rules : RuleSet) : Option String :=
  if !rules.has keepBlanksToken then some "strip"
  else if rules.has capitalsToken then some "upper"
  else if rules.has smallsToken then some "lower"
  else none

end RuleSet

/-- A scalar as it is to be checked, and whether it differs from what is held. -/
structure Settled where
  value : Value
  changed : Bool

namespace ScalarKind

def isZero (kind : ScalarKind) (value : Value) : Except Fault Bool :=
  match kind with
  | timestamp =>
    match value with
    | .scalar _ (.moment m) => .ok m.isZero
    | other => .error (.noAttribute other.classOf.fullName "replace")
  | kind => .ok (value.same (.ofScalar kind.zero))

/-- The value that folding puts in place of a value, if any. -/
def folded? (kind : ScalarKind) (rules : RuleSet) (value : Value) : Except Fault (Option Value) :=
  match kind, rules.foldOperation? with
  | text, some operation =>
    match value with
    | .scalar _ (.text s) => .ok (some (.ofText (rules.foldText s)))
    | other => .error (.noAttribute other.classOf.fullName operation)
  | _, _ => .ok none

def readOrStop (kind : ScalarKind) (literal token : String) : Except Stop Scalar :=
  match kind.read literal with
  | .ok content => .ok content
  | .error error => .error (Literal.stop literal token error)

def orFault {α : Type} (result : Except Fault α) : Except Stop α :=
  match result with
  | .ok a => .ok a
  | .error fault => .error (.fault fault)

/-- The default that takes the place of a value, if the value is zero and the default is not. -/
def default? (kind : ScalarKind) (rules : RuleSet) (value : Value) : Except Stop (Option Value) :=
  match rules.default? with
  | none => .ok none
  | some literal => do
    if ← orFault (kind.isZero value) then
      let content ← kind.readOrStop literal (RuleSet.defaultFront ++ literal)
      let default := Value.ofScalar content
      return if default.same value then none else some default
    else return none

def settle (kind : ScalarKind) (rules : RuleSet) (held : Value) : Except Stop Settled := do
  let start := if held.isNull then Value.ofScalar kind.zero else held
  let folded ← orFault (kind.folded? rules start)
  let value := folded.getD start
  let default ← kind.default? rules value
  let final := default.getD value
  if held.isNull then
    return ⟨final, !(← orFault (kind.isZero final))⟩
  else
    return ⟨final, (default.orElse fun _ => folded).any fun new => !new.same held⟩

/-- A value as it takes part in comparisons: moments without an offset count as universal time. -/
def comparable (kind : ScalarKind) (value : Value) : Except Fault Value :=
  match kind with
  | timestamp =>
    match value with
    | .scalar _ (.moment m) => .ok (.ofScalar (.moment m.universal))
    | other => .error (.noAttribute other.classOf.fullName "tzinfo")
  | _ => .ok value

def comparableThreshold (kind : ScalarKind) (threshold : Scalar) : Scalar :=
  match kind, threshold with
  | timestamp, .moment m => .moment m.universal
  | _, threshold => threshold

/-- What stops a visit at a comparison with a value, if anything. -/
def compareStop (kind : ScalarKind) (value : Value) (c : Comparison) : Option Stop :=
  if kind.supports c.op then
    match kind.readOrStop c.literal c.token with
    | .error stop => some stop
    | .ok threshold =>
      match (kind.comparable value).bind fun own =>
          own.compare c.op (kind.comparableThreshold threshold) with
      | .error fault => some (.fault fault)
      | .ok true => none
      | .ok false => some (.refuse (.comparison c threshold.thresholdText kind.isTime))
  else some (.refuse (.unknownOperator c.op.symbol))

/-- What stops a visit at a token that compares the value itself, if anything. -/
def valueStop (kind : ScalarKind) (value : Value) (token : String) : Option Stop :=
  match Comparison.splitOrStop token "val" with
  | .error stop => some stop
  | .ok none => none
  | .ok (some c) => kind.compareStop value c

def patternFront : String := "regexp "

def choiceFront : String := "oneof "

def patternStop (value : Value) (text : String) : Option Stop :=
  match Pattern.parse text with
  | .error (.malformed reason) => some (.refuse (.badPattern text reason))
  | .error .repetitionTooLarge => some (.fault .repetitionTooLarge)
  | .error (.tooManyDigits count) => some (.fault (.tooManyDigits count))
  | .error .codeTooLarge => some (.fault .codeTooLarge)
  | .error .exclusiveFlags => some (.fault .exclusiveFlags)
  | .ok pattern =>
    match value with
    | .scalar _ (.text s) =>
      if pattern.occursIn s then none else some (.refuse .patternMismatch)
    | other => some (.fault (.notText other.classOf.fullName))

def choiceStop (value : Value) (choices : String) : Option Stop :=
  if (Text.cutString '|' choices).any fun choice => value.same (.ofText choice) then none
  else some (.refuse (.notAmong choices))

def textStop (value : Value) (token : String) : Option Stop :=
  match Comparison.splitOrStop token "len" with
  | .error stop => some stop
  | .ok (some c) => c.lengthStop value.lengthOrFault
  | .ok none =>
    match Text.argument? patternFront token with
    | some pattern => patternStop value pattern
    | none =>
      match Text.argument? choiceFront token with
      | some choices => choiceStop value choices
      | none => text.valueStop value token

def tokenStop (kind : ScalarKind) (value : Value) (token : String) : Option Stop :=
  match kind with
  | text => textStop value token
  | kind => kind.valueStop value token

/-- What `required` makes of a zero. -/
def zeroReason : ScalarKind → Reason
  | text => .missing
  | _ => .zero

/-- What stops a visit because a value is asked for and the value is zero, if anything. -/
def requiredStop (kind : ScalarKind) (rules : RuleSet) (value : Value) : Option Stop :=
  if rules.required then
    match kind.isZero value with
    | .error fault => some (.fault fault)
    | .ok true => some (.refuse kind.zeroReason)
    | .ok false => none
  else none

def signStop (kind : ScalarKind) (value : Value) : Option Stop :=
  match kind with
  | uint =>
    match value.compare .lt (.int 0) with
    | .error fault => some (.fault fault)
    | .ok true => some (.refuse .negative)
    | .ok false => none
  | _ => none

def checkStop (kind : ScalarKind) (rules : RuleSet) (value : Value) : Option Stop :=
  (kind.requiredStop rules value).orElse fun _ =>
    (kind.signStop value).orElse fun _ => rules.tokens.findSome? (kind.tokenStop value)

def visit (kind : ScalarKind) (writable : Bool) (held : Value) (rules : RuleSet) : Visit :=
  match kind.settle rules held with
  | .error stop => .halt held stop
  | .ok settled =>
    if settled.changed then
      if writable then
        ⟨settled.value, true, [.wrote], kind.checkStop rules settled.value⟩
      else .refuse held .notWritable
    else ⟨held, false, [], kind.checkStop rules settled.value⟩

end ScalarKind

end RuleCheck
