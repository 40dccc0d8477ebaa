import RuleCheck.Category
import RuleCheck.ScalarKind

/-!
# Evaluators and registries

An evaluator is a way to visit values, made for one category.  A registry says which evaluator serves
which category, in the order of registration; values of a category that none serves are left alone.
-/

namespace RuleCheck

/-- The ways to visit a value. -/
inductive Evaluator where
  | optional
  | reference
  | scalar (kind : ScalarKind)
  | record
  | sequence
  | mapping
  deriving DecidableEq, Repr

namespace ScalarKind

def category : ScalarKind → Category
  | text => .text
  | int => .int
  | uint => .uint
  | float => .float
  | bool => .bool
  | duration => .duration
  | timestamp => .timestamp

end ScalarKind

namespace Evaluator

def category : Evaluator → Category
  | optional => .optional
  | reference => .reference
  | scalar kind => kind.category
  | record => .record
  | sequence => .list
  | mapping => .map

def name : Evaluator → String
  | optional => "OptionalEvaluator"
  | reference => "ReferenceEvaluator"
  | scalar .text => "TextEvaluator"
  | scalar .int => "IntEvaluator"
  | scalar .uint => "UintEvaluator"
  | scalar .float => "FloatEvaluator"
  | scalar .bool => "BooleanEvaluator"
  | scalar .duration => "DurationEvaluator"
  | scalar .timestamp => "TimestampEvaluator"
  | record => "RecordEvaluator"
  | sequence => "SequenceEvaluator"
  | mapping => "MappingEvaluator"

def display (evaluator : Evaluator) : String :=
  evaluator.name ++ "(category='" ++ evaluator.category.name ++ "')"

def all : List Evaluator :=
  [optional, reference, scalar .text, scalar .int, scalar .uint, scalar .float, scalar .bool,
    scalar .duration, scalar .timestamp, record, sequence, mapping]

def forCategory? (category : Category) : Option Evaluator :=
  all.find? fun evaluator => evaluator.category == category

end Evaluator

/-- Which evaluator serves which category, in the order of registration. -/
structure Registry where
  entries : List (Category × Evaluator)
  deriving DecidableEq, Repr

inductive RegistryError where
  | alreadyRegistered (category : Category)
  | notRegistered (category : Category)
  deriving DecidableEq, Repr

namespace RegistryError

def message : RegistryError → String
  | alreadyRegistered category => "Evaluator for '" ++ category.name ++ "' already registered"
  | notRegistered category => "No evaluator registered for '" ++ category.name ++ "'"

end RegistryError

namespace Registry

def empty : Registry := ⟨[]⟩

def standard : Registry :=
  ⟨Evaluator.all.map fun evaluator => (evaluator.category, evaluator)⟩

def get? (registry : Registry) (category : Category) : Option Evaluator :=
  registry.entries.lookup category

def contains (registry : Registry) (category : Category) : Bool :=
  (registry.get? category).isSome

def categories (registry : Registry) : List Category :=
  registry.entries.map Prod.fst

def size (registry : Registry) : Nat :=
  registry.entries.length

/-- Lets an evaluator serve a category; an earlier one is exchanged only if that is asked for. -/
def register (registry : Registry) (category : Category) (evaluator : Evaluator) (update : Bool) :
    Except RegistryError Registry :=
  if registry.contains category then
    if update then
      .ok ⟨registry.entries.map fun entry =>
        if entry.1 == category then (category, evaluator) else entry⟩
    else .error (.alreadyRegistered category)
  else .ok ⟨registry.entries ++ [(category, evaluator)]⟩

/-- Takes a category out of the registry: the evaluator that served it, and the rest. -/
def unregister (registry : Registry) (category : Category) :
    Except RegistryError (Evaluator × Registry) :=
  match registry.get? category with
  | some evaluator =>
    .ok (evaluator, ⟨registry.entries.filter fun entry => entry.1 != category⟩)
  | none => .error (.notRegistered category)

/-- The registry itself, or the standard one in place of one without evaluators. -/
def orStandard (registry : Registry) : Registry :=
  if registry.entries.isEmpty then standard else registry

def display (registry : Registry) : String :=
  "EvaluatorRegistry(categories=[" ++
    String.intercalate ", " (registry.categories.map fun category => "'" ++ category.name ++ "'") ++
    "])"

example : Registry.standard.size = 12 := rfl

end Registry

end RuleCheck
