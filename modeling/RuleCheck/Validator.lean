import RuleCheck.Evaluator
import RuleCheck.Text.Quoted

/-!
# Validators

A validator is a configuration and a registry of evaluators.
-/

namespace RuleCheck

structure Config where
  /-- The key under which rule texts are attached to fields. -/
  tagKey : String
  /-- Whether the tokens of rule texts are kept for later. -/
  cacheRules : Bool
  /-- Whether refusals go to the log. -/
  logFailures : Bool
  deriving DecidableEq, Repr

namespace Config

def standard : Config := ⟨"rules", true, false⟩

/-- Whether the settings are allowed: the key must not be empty. -/
def isAllowed (config : Config) : Bool :=
  config.tagKey != ""

end Config

/-- A configuration and the evaluators in use. -/
structure Validator where
  config : Config
  registry : Registry
  deriving DecidableEq, Repr

namespace Validator

def standard : Validator := ⟨.standard, .standard⟩

/-- The validator for the given settings and registry; one without evaluators counts as not given. -/
def make (config : Option Config) (registry : Option Registry) : Validator :=
  ⟨config.getD .standard, (registry.getD .standard).orStandard⟩

def display (validator : Validator) : String :=
  "Validator(tag_key=" ++ Text.quoted validator.config.tagKey ++ ", categories=" ++
    Number.natText validator.registry.size ++ ")"

end Validator

end RuleCheck
