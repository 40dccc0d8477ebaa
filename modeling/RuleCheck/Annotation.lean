import RuleCheck.Class

/-!
# Annotations

What is declared of a value: a class, perhaps with annotations of what it contains, a union, a name
that stands for a class, or one of these with markers attached.  `unite` and `annotate` build unions
and marked annotations in their normal form: a union has no unions among its members and no member
twice, and markers are not nested.
-/

namespace RuleCheck

inductive Marker where
  /-- A rule text. -/
  | rules (text : String)
  /-- Integers have no sign. -/
  | unsigned
  /-- A note that means nothing here. -/
  | other (text : String)
  deriving DecidableEq, Repr

/-- What is declared of a value. -/
inductive Annotation where
  /-- Nothing is declared. -/
  | absent
  /-- Any value is declared. -/
  | any
  | bare (base : Class)
  /-- A class with annotations of what it contains, for a tuple one for each item. -/
  | applied (base : Class) (arguments : List Annotation)
  /-- A tuple of any length with one annotation for all items. -/
  | tupleOf (item : Annotation)
  | union (members : List Annotation)
  | annotated (inner : Annotation) (markers : List Marker)
  /-- A declared name for another annotation. -/
  | newType (name : String) (inner : Annotation)
  /-- A name that is not resolved. -/
  | forward (name : String)
  | variable (name : String)
  | literal (texts : List String)
  deriving Repr

namespace Annotation

def null : Annotation := .bare (.builtIn .null)

mutual

/-- Whether two annotations are equal; the order of a union's members does not count. -/
def same : Annotation → Annotation → Bool
  | .absent, .absent => true
  | .any, .any => true
  | .bare base, .bare base' => base == base'
  | .applied base arguments, .applied base' arguments' =>
    base == base' && sameList arguments arguments'
  | .tupleOf item, .tupleOf item' => same item item'
  | .union members, .union members' =>
    members.length == members'.length && among members members'
  | .annotated inner markers, .annotated inner' markers' =>
    same inner inner' && markers == markers'
  | .newType name inner, .newType name' inner' => name == name' && same inner inner'
  | .forward name, .forward name' => name == name'
  | .variable name, .variable name' => name == name'
  | .literal texts, .literal texts' => texts == texts'
  | _, _ => false

def sameList : List Annotation → List Annotation → Bool
  | [], others => others.isEmpty
  | a :: list, others =>
    match others with
    | [] => false
    | b :: others => same a b && sameList list others

def among : List Annotation → List Annotation → Bool
  | [], _ => true
  | a :: list, others => others.any (same a) && among list others

end

def members : Annotation → List Annotation
  | .union members => members
  | other => [other]

def dropRepeated (list : List Annotation) : List Annotation :=
  list.foldl (fun kept a => if kept.any (same a) then kept else kept ++ [a]) []

def unite (list : List Annotation) : Annotation :=
  match dropRepeated (list.flatMap members) with
  | [single] => single
  | members => .union members

def annotate (inner : Annotation) (markers : List Marker) : Annotation :=
  match inner with
  | .annotated inner earlier => .annotated inner (earlier ++ markers)
  | inner => .annotated inner markers

def optional (inner : Annotation) : Annotation :=
  unite [inner, null]

def isNull : Annotation → Bool
  | .bare (.builtIn .null) => true
  | _ => false

mutual

/-- The number of parts of an annotation, which bounds how often a walk unwraps it. -/
def size : Annotation → Nat
  | .applied _ arguments => listSize arguments + 1
  | .tupleOf item => size item + 1
  | .union members => listSize members + 1
  | .annotated inner _ => size inner + 1
  | .newType _ inner => size inner + 1
  | _ => 1

def listSize : List Annotation → Nat
  | [] => 0
  | a :: list => size a + listSize list

end

theorem size_pos (a : Annotation) : 0 < a.size := by
  cases a <;> simp [size]

mutual

/--
The annotation with every name replaced by the class it stands for, or the first unknown name.  A name is looked up
whole: dotted names, texts that are no names, and annotations that are written as one text altogether are left out.
-/
def resolveNames (classes : String → Option Class) : Annotation → Except String Annotation
  | .applied base arguments => do
    return .applied base (← resolveNamesList classes arguments)
  | .tupleOf item => do
    return .tupleOf (← resolveNames classes item)
  | .union members => do
    return unite (← resolveNamesList classes members)
  | .annotated inner markers => do
    return annotate (← resolveNames classes inner) markers
  | .forward name =>
    match classes name with
    | some base => .ok (.bare base)
    | none => .error name
  | other => .ok other

def resolveNamesList (classes : String → Option Class) :
    List Annotation → Except String (List Annotation)
  | [] => .ok []
  | a :: list => do
    let a ← resolveNames classes a
    let list ← resolveNamesList classes list
    return a :: list

end

def markerRules (markers : List Marker) : List String :=
  markers.filterMap fun
    | .rules text => some text
    | _ => none

mutual

/-- The rule texts of an annotation: those of its markers, or of the members of a union. -/
def ruleTexts : Annotation → List String
  | .annotated _ markers => markerRules markers
  | .union members => ruleTextsList members
  | _ => []

def ruleTextsList : List Annotation → List String
  | [] => []
  | a :: list => ruleTexts a ++ ruleTextsList list

end

end Annotation

end RuleCheck
