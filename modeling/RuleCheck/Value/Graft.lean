import RuleCheck.Value

/-!
# What is left of an object

A walk turns a value into a new one by changing mutable nodes in place and by rebuilding the others.
`graft` tells what the old object then holds: a node that cannot be changed keeps its own scalars and
passes on to its children, and from the first mutable node on the old object is the new value.
-/

namespace RuleCheck.Value

mutual

/-- What an object that held the first value holds once a walk has arrived at the second one. -/
def graft (old new : Value) : Value :=
  match old with
  | .sequence kind derived items =>
    if kind.isMutable then new else .sequence kind derived (graftItems items new.children)
  | .mapping kind derived entries =>
    if kind.isMutable then new else .mapping kind derived (graftEntries entries new.children)
  | .box _ => new
  | .record head slots =>
    if head.isMutable then new else .record head (graftSlots slots new.children)
  | other => other

def graftItems : List Value → List Value → List Value
  | old :: olds, new :: news => graft old new :: graftItems olds news
  | olds, _ => olds

def graftEntries : List (Value × Value) → List Value → List (Value × Value)
  | (key, old) :: olds, new :: news => (key, graft old new) :: graftEntries olds news
  | olds, _ => olds

def graftSlots : List (String × Value) → List Value → List (String × Value)
  | (name, old) :: olds, new :: news => (name, graft old new) :: graftSlots olds news
  | olds, _ => olds

end

end RuleCheck.Value
