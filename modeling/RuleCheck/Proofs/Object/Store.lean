import RuleCheck.Schema

/-!
# Objects in a store

Values with parts live as objects at addresses of a store.  An object has a frame, which says what it is,
and slots, each of which holds a value without parts or refers to an object.  Two slots that refer to the
same object share it: what is assigned to a slot of the object is seen through both.
-/

namespace RuleCheck

/-- What an object is, apart from what its slots hold. -/
inductive Frame where
  | sequence (kind : SequenceKind) (derived : Option String)
  | mapping (kind : MappingKind) (derived : Option String) (keys : List Value)
  | box
  | record (head : RecordHead) (names : List String)

/-- A slot: a value without parts that can be assigned, or a reference to an object. -/
inductive Slot where
  | atom (value : Value)
  | object (address : Nat)

/-- An object. -/
structure Cell where
  frame : Frame
  slots : List Slot

/-- The objects that there are, in the order of their addresses. -/
abbrev Store := List Cell

namespace Frame

def isMutable : Frame → Bool
  | sequence kind _ => kind.isMutable
  | mapping kind _ _ => kind.isMutable
  | box => true
  | record head _ => head.isMutable

def fill (values : List Value) : Frame → Value
  | sequence kind derived => .sequence kind derived values
  | mapping kind derived keys => .mapping kind derived (keys.zip values)
  | box => .box (values.headD .null)
  | record head names => .record head (names.zip values)

def fieldIndex? (name : String) : Frame → Option Nat
  | box => if name == Schema.boxField.name then some 0 else none
  | record _ names => names.findIdx? fun own => own == name
  | sequence .. | mapping .. => none

end Frame

namespace Store

/-- The value that a slot holds, read at most so many levels deep. -/
def read (store : Store) : Nat → Slot → Value
  | _, .atom value => value
  | 0, .object _ => .null
  | depth + 1, .object address =>
    match store[address]? with
    | some cell => cell.frame.fill (cell.slots.map (read store depth))
    | none => .null

def slots (store : Store) : Slot → List Slot
  | .atom _ => []
  | .object address => (store[address]?.map Cell.slots).getD []

/-- The slot for a field of the object that a slot refers to, with its place in the object. -/
def fieldSlot? (store : Store) (name : String) : Slot → Option (Nat × Slot)
  | .atom _ => none
  | .object address =>
    store[address]?.bind fun cell =>
      (cell.frame.fieldIndex? name).bind fun index =>
        cell.slots[index]?.map fun slot => (index, slot)

end Store

end RuleCheck
