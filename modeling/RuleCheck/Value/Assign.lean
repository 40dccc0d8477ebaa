import RuleCheck.Hook
import RuleCheck.Value.Equality

/-!
# Assignment inside a value

Putting a value into an object at a path.  A step of a path is the index of an item, the key of an entry,
the name of a field, or a star for the content of a box.
-/

namespace RuleCheck.Value

def changeItem (change : Value → Except Fault Value) : Nat → List Value → Except Fault (List Value)
  | _, [] => .ok []
  | 0, item :: items => do return (← change item) :: items
  | index + 1, item :: items => do return item :: (← changeItem change index items)

/-- The entries with the one of a key changed, the key being added if it is not there. -/
def changeEntry (change : Value → Except Fault Value) (key : Value) :
    List (Value × Value) → Except Fault (List (Value × Value))
  | [] => do return [(key, ← change .null)]
  | (own, value) :: entries =>
    if own.same key then do return (own, ← change value) :: entries
    else do return (own, value) :: (← changeEntry change key entries)

def index? : Value → Option Nat
  | .scalar _ (.int n) => some n.toNat
  | _ => none

def assignAt (new : Value) : List Value → Value → Except Fault Value
  | [], _ => .ok new
  | step :: path, object =>
    match object, step with
    | .sequence kind derived items, step => do
      let items ← changeItem (assignAt new path) (step.index?.getD items.length) items
      return .sequence kind derived items
    | .mapping kind derived entries, step => do
      return .mapping kind derived (← changeEntry (assignAt new path) step entries)
    | .box content, _ => do return .box (← assignAt new path content)
    | .record head slots, .scalar _ (.text name) => do
      let content ← assignAt new path ((slots.lookup name).getD .null)
      if path.isEmpty then (Value.record head slots).assignField name content
      else
        return .record head (slots.map fun slot =>
          if slot.1 == name then (slot.1, content) else slot)
    | other, _ => .ok other

end RuleCheck.Value
