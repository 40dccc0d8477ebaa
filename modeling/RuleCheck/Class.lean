import RuleCheck.Value

/-!
# Classes

The classes that values belong to and that annotations name: built-in ones, classes derived from
them, enumerations and record types.
-/

namespace RuleCheck

inductive BuiltIn where
  | null
  | bool
  | int
  | float
  | text
  | duration
  | moment
  | date
  | bytes
  | byteArray
  | complex
  | object
  | list
  | tuple
  | deque
  | set
  | frozenset
  | range
  | dict
  | readOnlyMapping
  | mapping
  | sequence
  | box
  deriving DecidableEq, Repr

inductive Class where
  | builtIn (base : BuiltIn)
  /-- A declared class derived from a built-in one. -/
  | derived (name : String) (base : BuiltIn)
  /-- An enumeration; its members may be texts or integers at the same time. -/
  | enumeration (name : String) (mixin : Option BuiltIn)
  | record (head : RecordHead)
  deriving DecidableEq, Repr

namespace BuiltIn

def name : BuiltIn → String
  | null => "NoneType"
  | bool => "bool"
  | int => "int"
  | float => "float"
  | text => "str"
  | duration => "timedelta"
  | moment => "datetime"
  | date => "date"
  | bytes => "bytes"
  | byteArray => "bytearray"
  | complex => "complex"
  | object => "object"
  | list => "list"
  | tuple => "tuple"
  | deque => "deque"
  | set => "set"
  | frozenset => "frozenset"
  | range => "range"
  | dict => "dict"
  | readOnlyMapping => "mappingproxy"
  | mapping => "Mapping"
  | sequence => "Sequence"
  | box => "Ref"

/-- The module that a built-in class is shown with, a point after it. -/
def home : BuiltIn → String
  | duration | moment | date => "datetime."
  | deque => "collections."
  | mapping | sequence => "collections.abc."
  | _ => ""

end BuiltIn

namespace Class

def name : Class → String
  | builtIn base => base.name
  | derived name _ => name
  | enumeration name _ => name
  | record head => head.name

def fullName : Class → String
  | builtIn base => base.home ++ base.name
  | other => other.name

def display : Class → String
  | builtIn base => "<class '" ++ base.home ++ base.name ++ "'>"
  | enumeration name _ => "<enum '" ++ name ++ "'>"
  | derived name _ => "<class '" ++ name ++ "'>"
  | record head => "<class '" ++ head.name ++ "'>"

/-- Whether the instances of a class are records; boxes count as records of one field. -/
def isRecord : Class → Bool
  | record _ => true
  | builtIn .box => true
  | _ => false

/-- The built-in class that the instances of a class also belong to; none for records. -/
def base? : Class → Option BuiltIn
  | builtIn base => some base
  | derived _ base => some base
  | enumeration _ mixin => mixin
  | record _ => none

end Class

namespace Scalar

def base : Scalar → BuiltIn
  | bool _ => .bool
  | int _ => .int
  | float _ => .float
  | text _ => .text
  | duration _ => .duration
  | moment _ => .moment

end Scalar

namespace SequenceKind

def base : SequenceKind → BuiltIn
  | list => .list
  | tuple => .tuple
  | deque => .deque
  | set => .set
  | frozenset => .frozenset

end SequenceKind

namespace Value

/-- The built-in class, or the class derived from it with the given name. -/
def derivedFrom (base : BuiltIn) : Option String → Class
  | none => .builtIn base
  | some name => .derived name base

def classOf : Value → Class
  | .null => .builtIn .null
  | .scalar .plain content => .builtIn content.base
  | .scalar (.derived name) content => .derived name content.base
  | .scalar (.member enumeration _) content => .enumeration enumeration (some content.base)
  | .foreign (.date ..) => .builtIn .date
  | .foreign (.bytes _) => .builtIn .bytes
  | .foreign (.byteArray _) => .builtIn .byteArray
  | .foreign (.complex ..) => .builtIn .complex
  | .member enumeration _ _ => .enumeration enumeration none
  | .sequence kind derived _ => derivedFrom kind.base derived
  | .range .. => .builtIn .range
  | .mapping .dict derived _ => derivedFrom .dict derived
  | .mapping .readOnly derived _ => derivedFrom .readOnlyMapping derived
  | .box _ => .builtIn .box
  | .record head _ => .record head

end Value

end RuleCheck
