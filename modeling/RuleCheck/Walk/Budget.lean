import RuleCheck.Schema
import RuleCheck.Walk

/-!
# Budgets of walks

The number of levels that a walk can need.  A step down leads to a value inside, or to the same value
with fewer parts in its annotation, so the levels of the value times the parts of the largest
annotation are enough.  Values that hooks assign can nest in one another from one visit to the next;
they are allowed for separately.
-/

namespace RuleCheck

namespace RecordDecl

/-- The greatest number of levels among the values that the hooks of a type assign. -/
def assignedDepth (decl : RecordDecl) : Nat :=
  (decl.hooks.map Hook.depth).foldl max 0

end RecordDecl

namespace Schema

/-- The greatest number of levels among the values that hooks assign. -/
def assignedDepth (schema : Schema) : Nat :=
  (schema.records.map RecordDecl.assignedDepth).foldl max 0

/-- The greatest number of parts among the annotations of fields. -/
def annotationSize (schema : Schema) (tagKey : String) : Nat :=
  ((boxField :: schema.records.flatMap (RecordDecl.resolved schema.class? tagKey)).map fun field =>
    field.declared.size).foldl max 0

end Schema

namespace Walk

/-- How often values that hooks assign may nest in one another. -/
def assignRounds : Nat := 1000

def budget (schema : Schema) (tagKey : String) (declared : Annotation) (value : Value) : Nat :=
  (value.depth + assignRounds * schema.assignedDepth) *
    (max declared.size (schema.annotationSize tagKey) + 1) + 1

end Walk

end RuleCheck
