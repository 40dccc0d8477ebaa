import RuleCheck.Session.Cache
import RuleCheck.Session.LogEntry
import RuleCheck.Validator
import RuleCheck.Walk.Budget

/-!
# Sessions

The calls of validators share two bounded caches, one of rule texts and one of the fields of record
types, and write to one log.  A walk reads rules and fields through the caches as they are when the
call begins; its events then bring the caches and the log up to date.

Statements about all values are about trees: no object is reached in two ways, be it in one value or from two
values of one call.
-/

namespace RuleCheck

/-- A call of a hook: the type of the record, and the context if it was handed over. -/
structure HookCall where
  typeName : String
  context : Option Value

/-- What the calls of validators share. -/
structure Session where
  schema : Schema
  rules : Cache String RuleSet
  fields : Cache (String × Option String) (List Field)
  log : List LogEntry
  trace : List HookCall

structure Outcome where
  /-- The value after defaults and normalization. -/
  value : Value
  /-- What the object that was handed in holds afterwards. -/
  state : Value
  stop : Option Stop

namespace Session

def ruleCapacity : Nat := 1024

def fieldCapacity : Nat := 512

def start (schema : Schema) : Session :=
  ⟨schema, .empty ruleCapacity, .empty fieldCapacity, [], []⟩

def tokenize (session : Session) (config : Config) (text : String) : RuleSet :=
  if config.cacheRules then (session.rules.find? text).getD (.parse text) else .parse text

def readFields (session : Session) (typeName tagKey : String) : List Field :=
  (session.fields.find? (typeName, some tagKey)).getD (session.schema.fields tagKey typeName)

def view? (session : Session) (tagKey : String) : Class → Option RecordView
  | .record head =>
    let decl := session.schema.record? head.name
    some ⟨head.name, session.readFields head.name tagKey, decl.bind RecordDecl.selfHook,
      decl.bind RecordDecl.contextHook⟩
  | .builtIn .box => some ⟨BuiltIn.box.name, [Schema.boxField], none, none⟩
  | _ => none

def walk (session : Session) (validator : Validator) (context : Value) : Walk where
  evaluator? := validator.registry.get?
  tagKey := validator.config.tagKey
  tokenize := session.tokenize validator.config
  view? := session.view? validator.config.tagKey
  context := context

def afterRules (session : Session) (config : Config) (text : String) : Session :=
  if config.cacheRules && text != "" then
    let session :=
      if (session.rules.find? text).isSome then session
      else { session with log := session.log ++ [.tokenizing text] }
    { session with rules := session.rules.use text (.parse text) }
  else session

def afterFields (session : Session) (typeName : String) (tagKey : Option String) : Session :=
  let key := (typeName, tagKey)
  let session :=
    if (session.fields.find? key).isSome then session
    else
      match (session.schema.record? typeName).bind
          (RecordDecl.unknownName? session.schema.class?) with
      | some name => { session with log := session.log ++ [.unresolved typeName name] }
      | none => session
  let found := session.schema.fields (tagKey.getD Config.standard.tagKey) typeName
  { session with fields := session.fields.use key found }

def after (config : Config) (session : Session) : Event → Session
  | .rulesRead text => session.afterRules config text
  | .fieldsRead typeName tagKey => session.afterFields typeName tagKey
  | .skipped category className =>
    { session with log := session.log ++ [.skipped category className] }
  | .wrote => session
  | .called typeName context => { session with trace := session.trace ++ [⟨typeName, context⟩] }

def afterCall (session : Session) (config : Config) (stop : Option Stop) : Session :=
  match stop with
  | some (.failed failure) =>
    if config.logFailures then { session with log := session.log ++ [.failed failure] }
    else session
  | _ => session

def run (session : Session) (validator : Validator) (writable : Bool) (declared : Annotation)
    (value : Value) (rules : RuleSet) (context : Value) : Outcome × Session :=
  let config := validator.config
  let levels := Walk.budget session.schema config.tagKey declared value
  let visit := (session.walk validator context).visit levels writable declared value rules
  (⟨visit.value, value.graft visit.value, visit.stop⟩,
    (visit.events.foldl (after config) session).afterCall config visit.stop)

/-- Validates one value with the rules declared on its parts, handing a context to hooks. -/
def validateContext (session : Session) (validator : Validator) (context value : Value) :
    Outcome × Session :=
  session.run validator false .absent value .empty context

/-- Validates values in order, up to the first that is refused: their states, and what stopped. -/
def validate (validator : Validator) : List Value → Session →
    (List Value × Option Stop) × Session
  | [], session => (([], none), session)
  | value :: values, session =>
    let (outcome, session) := session.validateContext validator .null value
    match outcome.stop with
    | some stop => ((outcome.state :: values, some stop), session)
    | none =>
      let ((states, stop), session) := validate validator values session
      ((outcome.state :: states, stop), session)

def validateValue (session : Session) (validator : Validator) (value : Value) (rules : String)
    (declared : Annotation) (context : Value) : Outcome × Session :=
  let tokens := session.tokenize validator.config rules
  (session.afterRules validator.config rules).run validator true declared value tokens context

end Session

end RuleCheck
