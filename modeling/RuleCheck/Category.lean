import RuleCheck.Annotation

/-!
# Categories

The category of a value decides which rules apply to it.  What is declared comes first, so that a
missing value is still a missing text or a missing record; where nothing usable is declared, or the
value does not fit it, the value's own class decides.
-/

namespace RuleCheck

/-- The categories of values. -/
inductive Category where
  | optional
  | reference
  | text
  | int
  | uint
  | float
  | bool
  | duration
  | timestamp
  | record
  | list
  | map
  | unsupported
  deriving DecidableEq, Repr

namespace Category

def all : List Category :=
  [optional, reference, text, int, uint, float, bool, duration, timestamp, record, list, map,
    unsupported]

def name : Category → String
  | optional => "optional"
  | reference => "reference"
  | text => "text"
  | int => "int"
  | uint => "uint"
  | float => "float"
  | bool => "bool"
  | duration => "duration"
  | timestamp => "timestamp"
  | record => "record"
  | list => "list"
  | map => "map"
  | unsupported => "unsupported"

def ofName? (name : String) : Option Category :=
  all.find? fun category => category.name == name

end Category

/-- The category of a value and what is declared of the values inside it. -/
structure Resolved where
  category : Category
  /-- What is declared of the content, of every item, or of every entry. -/
  element : Annotation
  /-- What is declared of the items of a tuple of fixed length, one by one. -/
  items : Option (List Annotation)

namespace Resolved

def ofCategory (category : Category) : Resolved :=
  ⟨category, .absent, none⟩

def ofElement (category : Category) (element : Annotation) : Resolved :=
  ⟨category, element, none⟩

def item (resolved : Resolved) (index : Nat) : Annotation :=
  match resolved.items with
  | some items => items.getD index .absent
  | none => resolved.element

end Resolved

inductive Arguments where
  | fixed (list : List Annotation)
  | repeated (item : Annotation)

namespace Arguments

def none : Arguments := .fixed []

/-- The first annotation, nothing declared if there is none. -/
def first : Arguments → Annotation
  | .fixed (a :: _) => a
  | .fixed [] => .absent
  | .repeated item => item

/-- The second of exactly two annotations, nothing declared otherwise. -/
def second : Arguments → Annotation
  | .fixed [_, b] => b
  | _ => .absent

end Arguments

namespace Class

def classifyBuiltIn (base : BuiltIn) (arguments : Arguments) (unsigned : Bool) : Resolved :=
  match base with
  | .box => .ofElement .reference arguments.first
  | .bool => .ofCategory .bool
  | .duration => .ofCategory .duration
  | .moment => .ofCategory .timestamp
  | .int => .ofCategory (if unsigned then .uint else .int)
  | .float => .ofCategory .float
  | .text => .ofCategory .text
  | .dict | .readOnlyMapping | .mapping => .ofElement .map arguments.second
  | .tuple =>
    match arguments with
    | .repeated item => .ofElement .list item
    | .fixed [] => .ofCategory .list
    | .fixed list => ⟨.list, .absent, some list⟩
  | .list | .deque | .set | .frozenset | .range | .sequence =>
    .ofElement .list arguments.first
  | .null | .date | .bytes | .byteArray | .complex | .object => .ofCategory .unsupported

def classify (base : Class) (arguments : Arguments) (unsigned : Bool) : Resolved :=
  match base with
  | .record _ => .ofCategory .record
  | base =>
    match base.base? with
    | some own => classifyBuiltIn own arguments unsigned
    | none => .ofCategory .unsupported

end Class

namespace Value

/-- Whether a value is a record; boxes count as records of one field. -/
def isRecord (value : Value) : Bool :=
  value.classOf.isRecord

def category (value : Value) : Resolved :=
  match value with
  | .null => .ofCategory .optional
  | value => value.classOf.classify .none false

/-- Whether a value that is not missing can be held under a declared category. -/
def fits (category : Category) (value : Value) : Bool :=
  match category, value with
  | .text, .scalar _ (.text _) => true
  | .int, .scalar _ (.int _) => true
  | .uint, .scalar _ (.int _) => true
  | .float, .scalar _ (.int _) => true
  | .float, .scalar _ (.float _) => true
  | .bool, .scalar _ (.bool _) => true
  | .duration, .scalar _ (.duration _) => true
  | .timestamp, .scalar _ (.moment _) => true
  | .record, value => value.isRecord
  | .reference, .box _ => true
  | .map, .mapping .. => true
  | .list, .sequence .. => true
  | .list, .range .. => true
  | .list, .record head _ => head.isTuple
  | .optional, _ => true
  | .unsupported, _ => true
  | _, _ => false

/-- The declared category if the value is missing or fits it, otherwise the value's own. -/
def settle (value : Value) (declared : Resolved) : Resolved :=
  if declared.category = .unsupported then value.category
  else if value.isNull || value.fits declared.category then declared
  else value.category

/-- Resolves the category of a value, integers being unsigned if an outer layer says so. -/
def resolveAs (value : Value) (unsigned : Bool) : Annotation → Resolved
  | .absent => value.category
  | .any => value.category
  | .annotated inner markers =>
    resolveAs value (unsigned || markers.contains .unsigned) inner
  | .newType _ inner => resolveAs value unsigned inner
  | .union members =>
    let present := members.filter fun member => !member.isNull
    if present.length = members.length then value.category
    else
      let inner := Annotation.unite present
      .ofElement .optional (if unsigned then inner.annotate [.unsigned] else inner)
  | .bare base => value.settle (base.classify .none unsigned)
  | .applied base arguments => value.settle (base.classify (.fixed arguments) unsigned)
  | .tupleOf item => value.settle (Class.classify (.builtIn .tuple) (.repeated item) unsigned)
  | .forward _ => value.category
  | .variable _ => value.category
  | .literal _ => value.category

def resolve (value : Value) (declared : Annotation) : Resolved :=
  value.resolveAs false declared

end Value

end RuleCheck
