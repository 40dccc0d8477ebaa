import RuleCheck.Failure
import RuleCheck.Value.Display

/-!
# Handles

A handle is a value together with the right to exchange it: not at all, for itself alone, or by passing
every new value on to an owner.
-/

namespace RuleCheck

inductive HandleMode where
  | readOnly
  /-- New values are kept by the handle alone. -/
  | scratch
  /-- New values are passed on to the owner. -/
  | forwarding
  deriving DecidableEq, Repr

/-- A value, the right to exchange it, and what was passed on to the owner so far. -/
structure Handle where
  value : Value
  mode : HandleMode
  passedOn : List Value

namespace Handle

def make (mode : HandleMode) (value : Value) : Handle := ⟨value, mode, []⟩

def isWritable (handle : Handle) : Bool :=
  handle.mode != .readOnly

def set (handle : Handle) (new : Value) : Except Reason Handle :=
  match handle.mode with
  | .readOnly => .error .notWritable
  | .scratch => .ok { handle with value := new }
  | .forwarding => .ok { handle with value := new, passedOn := handle.passedOn ++ [new] }

/-- A handle that can be written always takes the new value, and no other one does. -/
theorem set_eq_error_iff (handle : Handle) (new : Value) :
    handle.set new = .error .notWritable ↔ handle.isWritable = false := by
  obtain ⟨value, mode, passedOn⟩ := handle
  cases mode <;> simp [set, isWritable]

def display (handle : Handle) : String :=
  "Handle(" ++ handle.value.display ++ ", " ++ (if handle.isWritable then "rw" else "ro") ++ ")"

end Handle

end RuleCheck
