import RuleCheck.Comparison
import RuleCheck.Text.Blank
import RuleCheck.Text.Cut
import RuleCheck.Text.Quoted

/-!
# Rule sets

A rule set is a list of tokens in the order of the text they were written in: the pieces between the
commas, without blanks at their ends, the empty ones left out.
-/

namespace RuleCheck

/-- An ordered collection of rule tokens. -/
structure RuleSet where
  tokens : List String
  deriving DecidableEq, Repr

namespace RuleSet

def excludeToken : String := "-"

def requiredToken : String := "required"

/-- The token of a field that also takes the rules of the field that holds its record. -/
def mainToken : String := "main"

def redirectFront : String := "on "

/-- The front of a token that gives a literal for a zero value. -/
def defaultFront : String := "default="

def empty : RuleSet := ⟨[]⟩

def parse (text : String) : RuleSet :=
  ⟨((Text.cutString ',' text).map Text.strip).filter fun token => token != ""⟩

def has (rules : RuleSet) (token : String) : Bool :=
  rules.tokens.contains token

def required (rules : RuleSet) : Bool :=
  rules.has requiredToken

def excluded (rules : RuleSet) : Bool :=
  rules.has excludeToken

/-- The literal of the first token that gives one for a zero value. -/
def default? (rules : RuleSet) : Option String :=
  rules.tokens.findSome? (Text.after? defaultFront)

/-- The names of the fields that the rules are redirected to, in order. -/
def targets (rules : RuleSet) : List String :=
  (rules.tokens.filterMap (Text.argument? redirectFront)).map Text.strip

def withoutFront (rules : RuleSet) (front : String) : RuleSet :=
  ⟨rules.tokens.filter fun token => !Text.startsWith token front⟩

def without (rules : RuleSet) (token : String) : RuleSet :=
  ⟨rules.tokens.filter fun other => other != token⟩

def append (rules other : RuleSet) : RuleSet :=
  ⟨rules.tokens ++ other.tokens⟩

instance : Append RuleSet := ⟨append⟩

/-- The comparisons of a key in order, up to the first token with an unknown operator. -/
def comparisons (rules : RuleSet) (key : String) : Except UnknownOperator (List Comparison) :=
  (rules.tokens.mapM fun token => Comparison.split token key).map fun found =>
    found.filterMap id

def text (rules : RuleSet) : String :=
  String.intercalate "," rules.tokens

def display (rules : RuleSet) : String :=
  "RuleSet(" ++ Text.quoted rules.text ++ ")"

@[simp] theorem tokens_append (rules other : RuleSet) :
    (rules ++ other).tokens = rules.tokens ++ other.tokens := rfl

example : (parse " required, len<=32 ,,").tokens = ["required", "len<=32"] := by decide +kernel

end RuleSet

end RuleCheck
