import RuleCheck.Session
import RuleCheck.Value.Assign

/-!
# Named values

A desk holds values under names, which live on from one call to the next: after a call a name stands
for what its object then holds.
-/

namespace RuleCheck

/-- Values under names, and the session of the calls on them. -/
structure Desk where
  values : List (String × Value)
  session : Session

namespace Desk

def get (desk : Desk) (name : String) : Value :=
  (desk.values.lookup name).getD .null

def put (desk : Desk) (name : String) (value : Value) : Desk :=
  { desk with
    values := desk.values.map fun entry => if entry.1 == name then (name, value) else entry }

/-- Validates one value with the rules declared on its parts, handing a context to hooks. -/
def validateContext (desk : Desk) (validator : Validator) (context : Value) (name : String) :
    Option Stop × Desk :=
  let (outcome, session) := desk.session.validateContext validator context (desk.get name)
  (outcome.stop, { desk.put name outcome.state with session := session })

/-- Validates the values under names in order; a name given twice is met twice. -/
def validate (validator : Validator) : List String → Desk → Option Stop × Desk
  | [], desk => (none, desk)
  | name :: names, desk =>
    match desk.validateContext validator .null name with
    | (some stop, desk) => (some stop, desk)
    | (none, desk) => validate validator names desk

/--
Validates a value against a rule text and an annotation; if it passes and is to be stored, the name
then stands for the value after defaults and normalization.
-/
def validateValue (desk : Desk) (validator : Validator) (store : Bool) (name rules : String)
    (declared : Annotation) (context : Value) : Outcome × Desk :=
  let (outcome, session) :=
    desk.session.validateValue validator (desk.get name) rules declared context
  let kept := if store && outcome.stop.isNone then outcome.value else outcome.state
  (outcome, { desk.put name kept with session := session })

def assign (desk : Desk) (name : String) (path : List Value) (new : Value) : Option Stop × Desk :=
  match Value.assignAt new path (desk.get name) with
  | .ok value => (none, desk.put name value)
  | .error fault => (some (.fault fault), desk)

end Desk

end RuleCheck
