import RuleCheck.Schema
import RuleCheck.Value.Zero
import RuleCheck.Visit
import RuleCheck.RuleSet

/-!
# Visits to records

What a visit to a record does is laid down in advance by its rules and its declared fields:
`RecordPlan.steps` lists the fields to visit, each with the rules it gets.  First come the fields that the
rules are redirected to, then every declared field that is not excluded, with its own rules.  A field
marked `main` is visited with the rules of the record before that.  Redirected rules do not redirect
again.  The hooks of the record run when all fields have passed.
-/

namespace RuleCheck

structure RecordView where
  typeName : String
  fields : List Field
  selfHook : Option Hook
  contextHook : Option Hook

def RecordView.hooks (view : RecordView) : List Hook :=
  view.selfHook.toList ++ view.contextHook.toList

theorem RecordView.mem_hooks {view : RecordView} {hook : Hook} :
    hook ∈ view.hooks ↔ view.selfHook = some hook ∨ view.contextHook = some hook := by
  simp [hooks]

inductive RecordStep where
  /-- The fields of the type are read. -/
  | readFields
  /-- The rule text of a field is read. -/
  | readRules (text : String)
  /-- A field is visited with rules. -/
  | descend (field : Field) (rules : RuleSet)
  /-- Rules are redirected to a field that does not exist. -/
  | unknown (name : String)

namespace RecordStep

def forwarded (rules : RuleSet) : RuleSet :=
  rules.withoutFront RuleSet.redirectFront

def ofTarget (fields : List Field) (rules : RuleSet) (name : String) : List RecordStep :=
  [.readFields,
    match fields.find? fun field => field.name == name with
    | some field => .descend field (forwarded rules)
    | none => .unknown name]

def ofField (tokenize : String → RuleSet) (rules : RuleSet) (field : Field) : List RecordStep :=
  let own := tokenize field.rules
  .readRules field.rules ::
    if own.excluded then []
    else if own.has RuleSet.mainToken then [.descend field (forwarded rules), .descend field own]
    else [.descend field own]

def all (tokenize : String → RuleSet) (fields : List Field) (rules : RuleSet) : List RecordStep :=
  rules.targets.flatMap (ofTarget fields rules) ++
    .readFields :: fields.flatMap (ofField tokenize rules)

end RecordStep

namespace Value

def fieldContent? (value : Value) (name : String) : Option Value :=
  match value with
  | .box content => if name == Schema.boxField.name then some content else none
  | value => value.field? name

def putSlot (name : String) (new : Value) : List (String × Value) → List (String × Value)
  | [] => []
  | (own, old) :: slots =>
    if own == name then (own, new) :: slots else (own, old) :: putSlot name new slots

def withField (value : Value) (name : String) (new : Value) : Value :=
  match value with
  | .box content => .box (if name == Schema.boxField.name then new else content)
  | .record head slots => .record head (putSlot name new slots)
  | other => other

end Value

namespace Visit

def field (descend : Bool → Annotation → Value → RuleSet → Visit) (writable : Bool)
    (record : Value) (field : Field) (rules : RuleSet) : Visit :=
  match record.fieldContent? field.name with
  | none => .abort record (.noAttribute record.classOf.fullName field.name)
  | some content =>
    let inner := descend (record.isMutable || writable) field.declared content rules
    ⟨record.withField field.name inner.value, !record.isMutable && inner.replaced, inner.events,
      inner.stop.map (Stop.under field.name)⟩

def step (descend : Bool → Annotation → Value → RuleSet → Visit) (tagKey typeName : String)
    (writable : Bool) (record : Value) : RecordStep → Visit
  | .readFields => (pass record).after [.fieldsRead typeName (some tagKey)]
  | .readRules text => (pass record).after [.rulesRead text]
  | .descend target rules => field descend writable record target rules
  | .unknown name => refuse record (.unknownField name)

/-- Takes steps of a visit to a record in order, up to the first that stops. -/
def steps (descend : Bool → Annotation → Value → RuleSet → Visit) (tagKey typeName : String)
    (writable : Bool) : List RecordStep → Value → Visit
  | [], record => pass record
  | first :: rest, record =>
    (step descend tagKey typeName writable record first).andThen
      (steps descend tagKey typeName writable rest)

/-- Runs a hook of a record, if the record's type has one. -/
def hook (typeName : String) (called : Option Value) (context : Value) (method : Option Hook)
    (record : Value) : Visit :=
  match method with
  | none => pass record
  | some method =>
    let (value, stop) := method.run context record
    ⟨value, false, if method.isMethod then [.called typeName called] else [], stop⟩

/-- Runs both hooks of a record, the one without a context first. -/
def hooks (view : RecordView) (context record : Value) : Visit :=
  (hook view.typeName none context view.selfHook record).andThen
    (hook view.typeName (some context) context view.contextHook)

def presentRecord (descend : Bool → Annotation → Value → RuleSet → Visit)
    (tokenize : String → RuleSet) (tagKey : String) (context : Value) (view : RecordView)
    (writable : Bool) (record : Value) (rules : RuleSet) : Visit :=
  (steps descend tagKey view.typeName writable (RecordStep.all tokenize view.fields rules)
    record).andThen (hooks view context)

def zeroEvents (value : Value) : List Event :=
  value.zeroReads.map fun name => .fieldsRead name none

/-- Visits a value as a record, if it is missing or of a class of records. -/
def record (descend : Bool → Annotation → Value → RuleSet → Visit)
    (tokenize : String → RuleSet) (tagKey : String) (context : Value)
    (view? : Class → Option RecordView) (writable : Bool) (value : Value) (rules : RuleSet) : Visit :=
  if value.isNull then
    ⟨.null, false, [], if rules.required then some (.refuse .missing) else none⟩
  else
    let events := if rules.required then zeroEvents value else []
    if rules.required && value.zeroFails then (abort value .tooLong).after events
    else if rules.required && value.isZero then (refuse value .missing).after events
    else
      match view? value.classOf with
      | some view =>
        (presentRecord descend tokenize tagKey context view writable value rules).after events
      | none => (abort value (.notRecord value.classOf.display)).after events

end Visit

end RuleCheck
