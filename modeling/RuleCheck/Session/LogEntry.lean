import RuleCheck.Category
import RuleCheck.Failure
import RuleCheck.Text.Quoted

/-!
# The log

What a session reports about its own work: each entry has a level, the channel it goes to, and its
words.
-/

namespace RuleCheck

inductive LogLevel where
  | debug
  | info
  deriving DecidableEq, Repr

inductive LogEntry where
  /-- A rule text was taken apart. -/
  | tokenizing (text : String)
  /-- A value was left alone, for nothing evaluates its category. -/
  | skipped (category : Category) (className : String)
  /-- What is declared of a record type could not be used, because a name is unknown. -/
  | unresolved (typeName name : String)
  /-- A value was refused. -/
  | failed (failure : Failure)
  deriving DecidableEq, Repr

namespace LogLevel

def name : LogLevel → String
  | debug => "DEBUG"
  | info => "INFO"

end LogLevel

namespace LogEntry

def level : LogEntry → LogLevel
  | failed _ => .info
  | _ => .debug

def channel : LogEntry → String
  | tokenizing _ => "fieldrules.tokens"
  | skipped .. => "fieldrules.walk"
  | unresolved .. => "fieldrules.records"
  | failed _ => "fieldrules.validator"

def message : LogEntry → String
  | tokenizing text => "Tokenizing rule string " ++ Text.quoted text
  | skipped category className =>
    "No evaluator for " ++ category.name ++ " value of type " ++ className ++ ", skipping"
  | unresolved typeName name =>
    "Cannot resolve annotations of " ++ typeName ++ ": name '" ++ name ++ "' is not defined"
  | failed failure => "Validation failed: " ++ failure.text

end LogEntry

end RuleCheck
