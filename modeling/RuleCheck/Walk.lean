import RuleCheck.Evaluator
import RuleCheck.Value.Depth
import RuleCheck.Visit.Record
import RuleCheck.Visit.Scalar
import RuleCheck.Visit.Sequence

/-!
# Walks

A walk takes a value with what is declared of it, finds its category, and lets the evaluator of that
category visit it; the evaluator comes back to the walk for the values inside.  Every step down is to a
value inside or to the same value with a smaller annotation, so a walk ends within a number of levels
that is known in advance: `Walk.budget`.
-/

namespace RuleCheck

/-- What a walk needs to know beside the value. -/
structure Walk where
  evaluator? : Category → Option Evaluator
  tagKey : String
  tokenize : String → RuleSet
  view? : Class → Option RecordView
  /-- The context that is handed to hooks. -/
  context : Value

namespace Walk

def evaluate (walk : Walk) (descend : Bool → Annotation → Value → RuleSet → Visit)
    (evaluator : Evaluator) (writable : Bool) (resolved : Resolved) (value : Value)
    (rules : RuleSet) : Visit :=
  match evaluator with
  | .optional => .optional descend writable resolved value rules
  | .reference => .reference descend resolved value rules
  | .scalar kind => kind.visit writable value rules
  | .record =>
    .record descend walk.tokenize walk.tagKey walk.context walk.view? writable value rules
  | .sequence => .sequence descend writable resolved value rules
  | .mapping => .mapping descend resolved value rules

/-- Visits a value in a place that can be written or not, at most so many levels deep. -/
def visit (walk : Walk) : Nat → Bool → Annotation → Value → RuleSet → Visit
  | 0, _, _, value, _ => .abort value .tooDeep
  | levels + 1, writable, declared, value, rules =>
    let resolved := value.resolve declared
    match walk.evaluator? resolved.category with
    | none => (Visit.pass value).after [.skipped resolved.category value.classOf.name]
    | some evaluator =>
      walk.evaluate (visit walk levels) evaluator writable resolved value rules

end Walk

end RuleCheck
