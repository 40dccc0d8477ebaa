import RuleCheck.Handle
import RuleCheck.Proofs.Object.Parts

/-!
# Handles over objects

A handle on a slot inside the content of a root passes what is written to it on to its owner: into the slot
itself, if the object with the slot can be changed, and otherwise as a copy of the object with the new slot, which
is then written to the handle that the object is held by.  Handles are kept under the seats of their slots, so that
there is never more than one for a slot.
-/

namespace RuleCheck

namespace Frame

/-- Whether an object is a tuple, with names for its items or without. -/
def isTuple : Frame → Bool
  | sequence .tuple _ => true
  | record head _ => head.isTuple
  | _ => false

end Frame

/--
Where a slot is: the last slot on the way to it that is the root or belongs to an object that can be changed, and
the way from there through objects that cannot be changed, the innermost index first.
-/
structure Seat where
  /-- The address of the object that can be changed and the index in it, nothing for the root. -/
  base : Option (Nat × Nat)
  below : List Nat
  deriving DecidableEq

namespace Seat

def root : Seat := ⟨none, []⟩

/-- The seat of a part of what is held at a seat, if that cannot be changed itself. -/
def part (seat : Seat) (index : Nat) : Seat :=
  ⟨seat.base, index :: seat.below⟩

/-- Whether a seat is on the way to another one, or the same. -/
def Over (outer inner : Seat) : Prop :=
  outer.base = inner.base ∧ outer.below <:+ inner.below

instance (outer inner : Seat) : Decidable (outer.Over inner) :=
  inferInstanceAs (Decidable (_ ∧ _))

end Seat

namespace Store

def cell? (store : Store) : Slot → Option Cell
  | .atom _ => none
  | .object address => store[address]?

def inner? (store : Store) (slot : Slot) (index : Nat) : Option Slot :=
  ((store.cell? slot).filter fun cell => !cell.frame.isMutable).bind fun cell => cell.slots[index]?

/-- The slot at the end of a way through objects that cannot be changed, the innermost index first. -/
def follow (store : Store) (start : Option Slot) : List Nat → Option Slot
  | [] => start
  | index :: below => (follow store start below).bind fun slot => store.inner? slot index

end Store

inductive Setter where
  | readOnly
  /-- Nothing but to hold it. -/
  | scratch
  /-- It goes into a slot of an object that can be changed. -/
  | assign (address index : Nat)
  /-- It goes into a copy of what the owner holds, and the copy to the owner. -/
  | exchange (copied : Frame → Frame) (index : Nat)

namespace Setter

def mode : Setter → HandleMode
  | readOnly => .readOnly
  | scratch => .scratch
  | assign .. | exchange .. => .forwarding

end Setter

/-- A handle: the slot that it holds, what it does with a new one, and the evaluator that goes through it. -/
structure Grip where
  slot : Slot
  setter : Setter
  evaluator : Evaluator

/-- A grip as a handle, its value read so many levels deep. -/
def Grip.handle (grip : Grip) (store : Store) (reach : Nat) : Handle :=
  .make grip.setter.mode (store.read reach grip.slot)

/-- How an evaluator that makes handles for the parts of an object copies the object, if it makes any. -/
def Evaluator.copies? : Evaluator → Frame → Option (Frame → Frame)
  | .record, .box => some id
  | .record, .record _ _ => some id
  | .reference, .box => some id
  | .sequence, .sequence .list _ => some fun _ => Done.tupleFrame
  | .sequence, .sequence .deque _ => some fun _ => Done.tupleFrame
  | .sequence, .sequence .tuple _ => some fun _ => Done.tupleFrame
  | .sequence, .record head _ => if head.isTuple then some fun _ => Done.tupleFrame else none
  | _, _ => none

/-- Objects and the handles on their slots. -/
structure Grips where
  store : Store
  grip? : Seat → Option Grip

/-- The handles after a call, and what the call raised. -/
structure GripsDone where
  grips : Grips
  stop : Option Stop

namespace Grips

def start (store : Store) (slot : Slot) (evaluator : Evaluator) (writable : Bool) : Grips where
  store := store
  grip? seat :=
    if seat = .root then some ⟨slot, if writable then .scratch else .readOnly, evaluator⟩ else none

def hold (grips : Grips) (seat : Seat) (slot : Slot) : Grips :=
  { grips with
    grip? := fun other =>
      if other = seat then (grips.grip? seat).map fun grip => { grip with slot := slot }
      else grips.grip? other }

def clear (grips : Grips) (seat : Seat) : Grips :=
  { grips with
    grip? := fun other => if seat.Over other ∧ other ≠ seat then none else grips.grip? other }

/-- A handle takes its seat, in place of an earlier one and of those of what was inside. -/
def place (grips : Grips) (seat : Seat) (grip : Grip) : Grips :=
  { grips with
    grip? := fun other =>
      if other = seat then some grip else if seat.Over other then none else grips.grip? other }

/-- An owner that holds nothing with parts has none to exchange. -/
def broken (grips : Grips) (owner : Slot) : GripsDone :=
  ⟨grips, some (.fault (.noAttribute (grips.store.read 0 owner).classOf.fullName "_replace"))⟩

/-- Gives the handle at a seat another slot, and passes it on. -/
def put (base : Option (Nat × Nat)) (below : List Nat) (new : Slot) (grips : Grips) : GripsDone :=
  match grips.grip? ⟨base, below⟩ with
  | none => grips.broken new
  | some grip =>
    match grip.setter with
    | .readOnly => ⟨grips, some (.refuse .notWritable)⟩
    | .scratch => ⟨grips.hold ⟨base, below⟩ new, none⟩
    | .assign address index =>
      let done := Done.put id index new none grips.store (.object address)
      ⟨{ grips with store := done.store }.hold ⟨base, below⟩ new, none⟩
    | .exchange copied index =>
      match below with
      | [] => grips.broken new
      | inner :: outer =>
        match grips.grip? ⟨base, outer⟩ with
        | none => grips.broken new
        | some owner =>
          let done := Done.put copied index new none grips.store owner.slot
          if done.replaced then
            let passed := put base outer done.slot { grips with store := done.store }
            match passed.stop with
            | none => ⟨passed.grips.hold ⟨base, inner :: outer⟩ new, none⟩
            | some _ => passed
          else grips.broken owner.slot

/-- Writes a value to the handle at a seat; what was inside has no slots any more. -/
def set (grips : Grips) (seat : Seat) (value : Value) : GripsDone :=
  let done := grips.put seat.base seat.below (.atom value)
  match done.stop with
  | none => ⟨done.grips.clear seat, none⟩
  | some _ => done

def make (grips : Grips) (seat : Seat) (index : Nat) (evaluator : Evaluator) : Option Grips :=
  match grips.grip? seat with
  | none => none
  | some owner =>
    match owner.slot with
    | .atom _ => none
    | .object address =>
      match grips.store[address]? with
      | none => none
      | some cell =>
        match owner.evaluator.copies? cell.frame, cell.slots[index]? with
        | some copied, some slot =>
          if cell.frame.isMutable then
            some (grips.place ⟨some (address, index), []⟩ ⟨slot, .assign address index, evaluator⟩)
          else
            let setter := if owner.setter.mode = .readOnly then .readOnly else .exchange copied index
            some (grips.place (seat.part index) ⟨slot, setter, evaluator⟩)
        | _, _ => none

/-! ## What is held at a seat -/

def base? (grips : Grips) : Option (Nat × Nat) → Option Slot
  | none => (grips.grip? .root).map Grip.slot
  | some (address, index) =>
    (grips.store[address]?.filter fun cell => cell.frame.isMutable).bind fun cell => cell.slots[index]?

def seek (grips : Grips) (seat : Seat) : Option Slot :=
  grips.store.follow (grips.base? seat.base) seat.below

end Grips

end RuleCheck
