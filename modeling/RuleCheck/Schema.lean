import RuleCheck.Annotation
import RuleCheck.Hook

/-!
# Schemas

A schema holds the declarations of record types: their fields with what is declared of them, the
notes attached to them, and their hooks.  `Schema.fields` gives the fields as a walk sees them, each
with its annotation and its joined rule text.

Names in annotations are resolved together for a data record or a named tuple: if one of them is
unknown, what is declared of the other fields does not count as resolved either.  The names of a model
are resolved field by field.
-/

namespace RuleCheck

/-- A field as it is declared. -/
structure FieldDecl where
  name : String
  declared : Annotation
  /-- Texts attached to the field, each under its key. -/
  notes : List (String × String)

namespace FieldDecl

/-- The field with a text attached under a key, in place of an earlier one. -/
def attach (field : FieldDecl) (key text : String) : FieldDecl :=
  { field with notes := (key, text) :: field.notes.filter fun note => note.1 != key }

/-- The text attached under a key; none is as good as an empty one. -/
def note (field : FieldDecl) (key : String) : String :=
  (field.notes.lookup key).getD ""

/-- What is declared of the field once names are resolved: without an annotation, the missing value. -/
def hint (classes : String → Option Class) (field : FieldDecl) : Except String Annotation :=
  match field.declared with
  | .absent => .ok .null
  | declared => declared.resolveNames classes

end FieldDecl

/-- A record type as it is declared. -/
structure RecordDecl where
  head : RecordHead
  fields : List FieldDecl
  /-- The method that is called without a context. -/
  selfMethod : Option Hook
  /-- The method that is called with the context. -/
  contextMethod : Option Hook

/-- A field as a walk sees it. -/
structure Field where
  name : String
  declared : Annotation
  /-- All rule texts of the field, joined by commas. -/
  rules : String

namespace Field

/-- Rule texts joined by commas, the empty ones left out. -/
def join (texts : List String) : String :=
  String.intercalate "," (texts.filter fun text => text != "")

end Field

namespace FieldDecl

/-- The field of a data record: its annotation's rules, then the text attached under the key. -/
def ofData (tagKey : String) (field : FieldDecl) (declared : Annotation) : Field :=
  ⟨field.name, declared, Field.join (declared.ruleTexts ++ [field.note tagKey])⟩

/--
The annotation of a data record's field where names cannot be resolved.  Only a name by itself is written as a text,
and then nothing is known of the field.
-/
def unresolved (field : FieldDecl) : Annotation :=
  match field.declared with
  | .forward _ => .absent
  | declared => declared

def splitMarkers : Annotation → List Marker × Annotation
  | .annotated inner markers => (markers, inner)
  | inner => ([], inner)

/--
The field of a model: the rules among its outermost markers, those of the rest of its annotation,
then the text attached under the key.
-/
def ofModel (tagKey : String) (field : FieldDecl) (declared : Annotation) : Field :=
  let (markers, inner) := splitMarkers declared
  let texts := Annotation.markerRules markers ++ inner.ruleTexts ++ [field.note tagKey]
  ⟨field.name, if markers.isEmpty then inner else inner.annotate markers, Field.join texts⟩

def ofNamedTuple (field : FieldDecl) (declared : Annotation) : Field :=
  ⟨field.name, declared, Field.join declared.ruleTexts⟩

def bare (field : FieldDecl) : Field :=
  ⟨field.name, .absent, ""⟩

end FieldDecl

namespace RecordDecl

/--
The hook that is found under a name: a field of that name, or else the method.  A field that is missing counts
as no hook, but not in a named tuple nor where there is a method as well.
-/
def hook? (decl : RecordDecl) (name : String) (method : Option Hook) : Option Hook :=
  if (decl.fields.map FieldDecl.name).contains name then
    some (.ofField name (decl.head.isTuple || method.isSome))
  else method

def selfHook (decl : RecordDecl) : Option Hook :=
  decl.hook? "validate_self" decl.selfMethod

def contextHook (decl : RecordDecl) : Option Hook :=
  decl.hook? "validate_self_context" decl.contextMethod

def methods (decl : RecordDecl) : List Hook :=
  decl.selfMethod.toList ++ decl.contextMethod.toList

def hooks (decl : RecordDecl) : List Hook :=
  decl.selfHook.toList ++ decl.contextHook.toList

theorem hook?_congr {decl decl' : RecordDecl}
    (hnames : decl.fields.map FieldDecl.name = decl'.fields.map FieldDecl.name)
    (htuple : decl.head.isTuple = decl'.head.isTuple) : decl.hook? = decl'.hook? := by
  funext name method
  rw [hook?, hook?, hnames, htuple]

/-- The annotations of all fields with their names resolved, or the first unknown name. -/
def hints (classes : String → Option Class) (decl : RecordDecl) : Except String (List Annotation) :=
  decl.fields.mapM (FieldDecl.hint classes)

/-- The fields as a walk sees them, with the texts attached under a key. -/
def resolved (classes : String → Option Class) (tagKey : String) (decl : RecordDecl) : List Field :=
  match decl.head.kind with
  | .data =>
    match decl.hints classes with
    | .ok hints => List.zipWith (FieldDecl.ofData tagKey) decl.fields hints
    | .error _ => decl.fields.map fun field => field.ofData tagKey field.unresolved
  | .model =>
    decl.fields.map fun field =>
      field.ofModel tagKey <|
        match field.hint classes with
        | .ok declared => declared
        | .error _ => field.declared
  | .namedTuple =>
    match decl.hints classes with
    | .ok hints => List.zipWith FieldDecl.ofNamedTuple decl.fields hints
    | .error _ => decl.fields.map FieldDecl.bare
  | .plainNamedTuple => decl.fields.map FieldDecl.bare

/-- The unknown name that keeps the annotations of the type from being used, if there is one. -/
def unknownName? (classes : String → Option Class) (decl : RecordDecl) : Option String :=
  match decl.head.kind with
  | .data | .namedTuple =>
    match decl.hints classes with
    | .ok _ => none
    | .error name => some name
  | .model | .plainNamedTuple => none

end RecordDecl

/-- The declarations that values and annotations refer to. -/
structure Schema where
  classes : List (String × Class)
  records : List RecordDecl

namespace Schema

def empty : Schema := ⟨[], []⟩

def class? (schema : Schema) (name : String) : Option Class :=
  schema.classes.lookup name

def record? (schema : Schema) (name : String) : Option RecordDecl :=
  schema.records.find? fun decl => decl.head.name == name

def boxField : Field :=
  ⟨"value", .optional (.variable "T"), ""⟩

def fields (schema : Schema) (tagKey name : String) : List Field :=
  match schema.record? name with
  | some decl => decl.resolved schema.class? tagKey
  | none => []

def fieldsOf? (schema : Schema) (tagKey : String) : Class → Option (List Field)
  | .record head => some (schema.fields tagKey head.name)
  | .builtIn .box => some [boxField]
  | _ => none

def hasHooks (schema : Schema) : Bool :=
  schema.records.any fun decl => decl.selfHook.isSome || decl.contextHook.isSome

end Schema

end RuleCheck
