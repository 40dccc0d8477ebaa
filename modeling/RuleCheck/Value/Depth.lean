import RuleCheck.Value

/-!
# Depth of values

The number of levels of a value, which bounds how deep a walk descends into it.
-/

namespace RuleCheck.Value

mutual

/-- The number of levels of a value; a leaf has one. -/
def depth : Value → Nat
  | .member _ _ content => depth content + 1
  | .sequence _ _ items => itemsDepth items + 1
  | .mapping _ _ entries => entriesDepth entries + 1
  | .box content => depth content + 1
  | .record _ slots => slotsDepth slots + 1
  | _ => 1

def itemsDepth : List Value → Nat
  | [] => 0
  | value :: items => max (depth value) (itemsDepth items)

def entriesDepth : List (Value × Value) → Nat
  | [] => 0
  | (key, value) :: entries => max (max (depth key) (depth value)) (entriesDepth entries)

def slotsDepth : List (String × Value) → Nat
  | [] => 0
  | (_, value) :: slots => max (depth value) (slotsDepth slots)

end

end RuleCheck.Value
