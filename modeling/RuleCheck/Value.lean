import RuleCheck.Scalar

/-!
# Values

A value is a finite tree: scalars at the leaves, and sequences, mappings, boxes and records above
them.  Nothing in it is shared: objects that can be reached in two ways, where a change on one way shows
on the other, are not covered.  Whether a node can be changed in place is a property of the node itself:
lists, queues, dictionaries, boxes and the records that are not frozen can, all others cannot.
-/

namespace RuleCheck

inductive Origin where
  /-- The built-in class of its content. -/
  | plain
  /-- A declared class derived from the built-in one. -/
  | derived (name : String)
  /-- A member of an enumeration whose members are texts or integers. -/
  | member (enumeration name : String)
  deriving DecidableEq, Repr

inductive Foreign where
  | date (year month day : Nat)
  | bytes (content : List UInt8)
  | byteArray (content : List UInt8)
  | complex (re im : Number.Binary64)
  deriving DecidableEq, Repr

inductive SequenceKind where
  | list
  | tuple
  | deque
  | set
  | frozenset
  deriving DecidableEq, Repr

inductive MappingKind where
  | dict
  | readOnly
  deriving DecidableEq, Repr

inductive RecordKind where
  /-- A class of named fields. -/
  | data
  /-- A model class. -/
  | model
  /-- A tuple with named and annotated items. -/
  | namedTuple
  /-- A tuple with named items that carry no annotations. -/
  | plainNamedTuple
  deriving DecidableEq, Repr

/-- What a record value knows of its type: name, kind, and whether its fields are fixed. -/
structure RecordHead where
  name : String
  kind : RecordKind
  frozen : Bool
  deriving DecidableEq, Repr

namespace RecordHead

def isTuple (head : RecordHead) : Bool :=
  match head.kind with
  | .namedTuple | .plainNamedTuple => true
  | .data | .model => false

def isMutable (head : RecordHead) : Bool :=
  !head.isTuple && !head.frozen

end RecordHead

/-- A value under validation. -/
inductive Value where
  /-- The missing value. -/
  | null
  | scalar (origin : Origin) (content : Scalar)
  | foreign (content : Foreign)
  /-- A member of an enumeration that stands for a value of any kind. -/
  | member (enumeration name : String) (content : Value)
  /--
  Listed items.  Those of a set stand in the order in which it is walked; this can be any order, and is not tied to
  hashes of the items.
  -/
  | sequence (kind : SequenceKind) (derived : Option String) (items : List Value)
  /-- An arithmetic progression, up to and without the stop. -/
  | range (start stop step : Int)
  | mapping (kind : MappingKind) (derived : Option String) (entries : List (Value × Value))
  /-- An explicit reference to a value, which can be exchanged. -/
  | box (content : Value)
  | record (head : RecordHead) (slots : List (String × Value))
  deriving Repr

namespace SequenceKind

def isMutable : SequenceKind → Bool
  | list | deque => true
  | tuple | set | frozenset => false

end SequenceKind

namespace MappingKind

def isMutable : MappingKind → Bool
  | dict => true
  | readOnly => false

end MappingKind

namespace Value

def ofScalar (content : Scalar) : Value :=
  .scalar .plain content

def ofText (text : String) : Value :=
  .scalar .plain (.text text)

def ofInt (n : Int) : Value :=
  .scalar .plain (.int n)

def scalar? : Value → Option Scalar
  | .scalar _ content => some content
  | _ => none

def isNull : Value → Bool
  | .null => true
  | _ => false

theorem eq_null_of_isNull {value : Value} (h : value.isNull = true) : value = .null := by
  cases value <;> first | rfl | cases h

theorem isNull_of_ne_null {value : Value} (h : value ≠ .null) : value.isNull = false := by
  cases value <;> first | rfl | exact absurd rfl h

def rangeLength (start stop step : Int) : Nat :=
  if 0 < step then ((stop - start + step - 1) / step).toNat
  else if step < 0 then ((start - stop - step - 1) / -step).toNat
  else 0

def rangeItems (start stop step : Int) : List Value :=
  (List.range (rangeLength start stop step)).map fun i => ofInt (start + Int.ofNat i * step)

/-- The number of items, entries, characters or bytes of a value that has any. -/
def length? : Value → Option Nat
  | .scalar _ (.text s) => some s.length
  | .foreign (.bytes content) => some content.length
  | .foreign (.byteArray content) => some content.length
  | .sequence _ _ items => some items.length
  | .range start stop step => some (rangeLength start stop step)
  | .mapping _ _ entries => some entries.length
  | .record head slots => if head.isTuple then some slots.length else none
  | _ => none

def lengthLimit : Nat := Nat.pow 2 63 - 1

def isOversized : Value → Bool
  | .range start stop step => lengthLimit < rangeLength start stop step
  | _ => false

def isMutable : Value → Bool
  | .sequence kind _ _ => kind.isMutable
  | .mapping kind _ _ => kind.isMutable
  | .box _ => true
  | .record head _ => head.isMutable
  | _ => false

/-- The values directly inside a value, in order: items, entries without keys, or slots. -/
def children : Value → List Value
  | .sequence _ _ items => items
  | .mapping _ _ entries => entries.map Prod.snd
  | .box content => [content]
  | .record _ slots => slots.map Prod.snd
  | _ => []

end Value

end RuleCheck
