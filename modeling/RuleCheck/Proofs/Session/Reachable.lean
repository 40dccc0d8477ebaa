import RuleCheck.Session

/-! # What the calls of a session read

A call reads rules and fields through the caches of its session.  In every session that a sequence of
calls can lead to, the caches hold only what is declared, so a call does what a walk does that reads the
declarations alone.
-/

namespace RuleCheck

namespace Schema

/-- What the declarations tell of a class, if it is one of records. -/
def view? (schema : Schema) (tagKey : String) : Class → Option RecordView
  | .record head =>
    let decl := schema.record? head.name
    some ⟨head.name, schema.fields tagKey head.name, decl.bind RecordDecl.selfHook,
      decl.bind RecordDecl.contextHook⟩
  | .builtIn .box => some ⟨BuiltIn.box.name, [boxField], none, none⟩
  | _ => none

def walk (schema : Schema) (validator : Validator) (context : Value) : Walk where
  evaluator? := validator.registry.get?
  tagKey := validator.config.tagKey
  tokenize := .parse
  view? := schema.view? validator.config.tagKey
  context := context

/-- The visit of such a walk to a value, with as many levels as the value can need. -/
def visit (schema : Schema) (validator : Validator) (context : Value) (writable : Bool)
    (declared : Annotation) (value : Value) (rules : RuleSet) : Visit :=
  (schema.walk validator context).visit
    (Walk.budget schema validator.config.tagKey declared value) writable declared value rules

end Schema

namespace Session

/-- The caches hold only what is declared. -/
structure Faithful (schema : Schema) (session : Session) : Prop where
  schema_eq : session.schema = schema
  rules : session.rules.Holds .parse
  fields : session.fields.Holds fun key =>
    schema.fields (key.2.getD Config.standard.tagKey) key.1

/-- The sessions that sequences of calls lead to. -/
inductive Reachable (schema : Schema) : Session → Prop
  | start : Reachable schema (.start schema)
  | context {session : Session} (h : Reachable schema session) (validator : Validator)
      (context value : Value) : Reachable schema (session.validateContext validator context value).2
  | value {session : Session} (h : Reachable schema session) (validator : Validator) (value : Value)
      (rules : String) (declared : Annotation) (context : Value) :
      Reachable schema (session.validateValue validator value rules declared context).2

variable {schema : Schema} {session : Session}

/-! ## The caches stay faithful -/

theorem faithful_start (schema : Schema) : (start schema).Faithful schema :=
  ⟨rfl, Cache.holds_empty _ _, Cache.holds_empty _ _⟩

theorem Faithful.afterRules (h : session.Faithful schema) (config : Config) (text : String) :
    (session.afterRules config text).Faithful schema := by
  unfold Session.afterRules
  split
  · split
    · exact ⟨h.schema_eq, h.rules.use text, h.fields⟩
    · exact ⟨h.schema_eq, h.rules.use text, h.fields⟩
  · exact h

theorem Faithful.afterFields (h : session.Faithful schema) (typeName : String)
    (tagKey : Option String) : (session.afterFields typeName tagKey).Faithful schema := by
  have hfields := h.fields.use (typeName, tagKey)
  have hschema := h.schema_eq
  subst hschema
  simp only [Session.afterFields]
  split
  · exact ⟨rfl, h.rules, hfields⟩
  · split
    · exact ⟨rfl, h.rules, hfields⟩
    · exact ⟨rfl, h.rules, hfields⟩

theorem Faithful.after (h : session.Faithful schema) (config : Config) (event : Event) :
    (session.after config event).Faithful schema := by
  cases event with
  | rulesRead text => exact h.afterRules config text
  | fieldsRead typeName tagKey => exact h.afterFields typeName tagKey
  | skipped category className => exact ⟨h.schema_eq, h.rules, h.fields⟩
  | wrote => exact h
  | called typeName context => exact ⟨h.schema_eq, h.rules, h.fields⟩

theorem Faithful.afterAll (h : session.Faithful schema) (config : Config) (events : List Event) :
    (events.foldl (Session.after config) session).Faithful schema := by
  induction events generalizing session with
  | nil => exact h
  | cons event events ih => exact ih (h.after config event)

theorem Faithful.afterCall (h : session.Faithful schema) (config : Config) (stop : Option Stop) :
    (session.afterCall config stop).Faithful schema := by
  unfold Session.afterCall
  split
  · split
    · exact ⟨h.schema_eq, h.rules, h.fields⟩
    · exact h
  · exact h

theorem Faithful.run (h : session.Faithful schema) (validator : Validator) (writable : Bool)
    (declared : Annotation) (value : Value) (rules : RuleSet) (context : Value) :
    (session.run validator writable declared value rules context).2.Faithful schema :=
  (h.afterAll validator.config _).afterCall validator.config _

theorem Reachable.faithful (h : Reachable schema session) : session.Faithful schema := by
  induction h with
  | start => exact faithful_start schema
  | context _ validator context value ih => exact ih.run validator _ _ _ _ _
  | value _ validator value rules declared context ih =>
      exact (ih.afterRules validator.config rules).run validator _ _ _ _ _

/-! ## A call does what a walk over the declarations does -/

theorem Faithful.tokenize_eq (h : session.Faithful schema) (config : Config) (text : String) :
    session.tokenize config text = .parse text := by
  unfold Session.tokenize
  cases hfound : session.rules.find? text with
  | none => simp
  | some found => simp [h.rules.find? hfound]

theorem Faithful.readFields_eq (h : session.Faithful schema) (typeName tagKey : String) :
    session.readFields typeName tagKey = schema.fields tagKey typeName := by
  have hschema := h.schema_eq
  subst hschema
  unfold Session.readFields
  cases hfound : session.fields.find? (typeName, some tagKey) with
  | none => rfl
  | some found => simp [h.fields.find? hfound]

theorem Faithful.walk_eq (h : session.Faithful schema) (validator : Validator) (context : Value) :
    session.walk validator context = schema.walk validator context := by
  have htokens : session.tokenize validator.config = RuleSet.parse :=
    funext (h.tokenize_eq validator.config)
  have hview : session.view? validator.config.tagKey = schema.view? validator.config.tagKey := by
    funext base
    cases base with
    | record head => simp only [Session.view?, Schema.view?, h.readFields_eq, h.schema_eq]
    | builtIn base => cases base <;> rfl
    | derived name base => rfl
    | enumeration name mixin => rfl
  unfold Session.walk Schema.walk
  rw [htokens, hview]

theorem Faithful.run_eq (h : session.Faithful schema) (validator : Validator) (writable : Bool)
    (declared : Annotation) (value : Value) (rules : RuleSet) (context : Value) :
    (session.run validator writable declared value rules context).1 =
      let visit := schema.visit validator context writable declared value rules
      ⟨visit.value, value.graft visit.value, visit.stop⟩ := by
  have hschema := h.schema_eq
  unfold Session.run Schema.visit
  rw [h.walk_eq, hschema]

theorem Reachable.validateContext_eq (h : Reachable schema session) (validator : Validator)
    (context value : Value) :
    (session.validateContext validator context value).1 =
      let visit := schema.visit validator context false .absent value .empty
      ⟨visit.value, value.graft visit.value, visit.stop⟩ :=
  h.faithful.run_eq validator false .absent value .empty context

theorem Reachable.validateValue_eq (h : Reachable schema session) (validator : Validator)
    (value : Value) (rules : String) (declared : Annotation) (context : Value) :
    (session.validateValue validator value rules declared context).1 =
      let visit := schema.visit validator context true declared value (.parse rules)
      ⟨visit.value, value.graft visit.value, visit.stop⟩ := by
  unfold Session.validateValue
  rw [h.faithful.tokenize_eq]
  exact (h.faithful.afterRules validator.config rules).run_eq validator true declared value _ context

/-- If all values pass, each of them was left by a visit of its own that passed. -/
theorem Reachable.validate_passed (h : Reachable schema session) (validator : Validator)
    (values : List Value) (hpass : (validate validator values session).1.2 = none) :
    (∀ value ∈ values, (schema.visit validator .null false .absent value .empty).stop = none) ∧
      (validate validator values session).1.1 = values.map fun value =>
        value.graft (schema.visit validator .null false .absent value .empty).value := by
  induction values generalizing session with
  | nil => simp [validate]
  | cons value values ih =>
      have hfirst := h.validateContext_eq validator .null value
      have hnext := h.context validator .null value
      cases hstop : (schema.visit validator .null false .absent value .empty).stop with
      | some stop => simp [validate, hfirst, hstop] at hpass
      | none =>
          simp only [validate, hfirst, hstop] at hpass ⊢
          obtain ⟨hrest, hstates⟩ := ih hnext hpass
          refine ⟨?_, ?_⟩
          · intro other hother
            rcases List.mem_cons.1 hother with rfl | hother
            · exact hstop
            · exact hrest other hother
          · rw [hstates]
            rfl

theorem Reachable.validate_singleton (h : Reachable schema session) (validator : Validator)
    (value : Value) :
    (validate validator [value] session).1 =
      let visit := schema.visit validator .null false .absent value .empty
      ([value.graft visit.value], visit.stop) := by
  have hfirst := h.validateContext_eq validator .null value
  simp only [validate]
  rw [hfirst]
  cases hstop : (schema.visit validator .null false .absent value .empty).stop <;> simp [hstop]

theorem Reachable.validate_stopped (h : Reachable schema session) (validator : Validator)
    (values : List Value) {stop : Stop}
    (hstop : (validate validator values session).1.2 = some stop) :
    ∃ value ∈ values,
      (schema.visit validator .null false .absent value .empty).stop = some stop := by
  induction values generalizing session with
  | nil => simp [validate] at hstop
  | cons value values ih =>
      have hfirst := h.validateContext_eq validator .null value
      have hnext := h.context validator .null value
      cases hvisit : (schema.visit validator .null false .absent value .empty).stop with
      | some other =>
          simp only [validate, hfirst, hvisit, Option.some.injEq] at hstop
          exact ⟨value, by simp, by rw [hvisit, hstop]⟩
      | none =>
          simp only [validate, hfirst, hvisit] at hstop
          obtain ⟨other, hother, hfound⟩ := ih hnext hstop
          exact ⟨other, by simp [hother], hfound⟩

end Session

end RuleCheck
