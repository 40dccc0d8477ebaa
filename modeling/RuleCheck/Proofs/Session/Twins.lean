import RuleCheck.Proofs.Session.Metadata
import RuleCheck.Proofs.Session.Tokens

/-! # Sessions that cannot be told apart

Two sessions go through the same calls, of validators with the same evaluators and the same key.  Whether
rule texts are read through the cache, whether refusals are logged, and what is noted under other keys makes
no difference to outcomes, to the calls of hooks and to the other entries of the log.  Behind it stands that
the caches hold only what is declared, never more than they can, and the same record types in both sessions.
-/

namespace RuleCheck

namespace Cache

variable {κ α : Type} [DecidableEq κ]

/-- What a cache holds something for, the most recent first. -/
def keys (cache : Cache κ α) : List κ :=
  cache.entries.map Prod.fst

theorem isSome_find? (cache : Cache κ α) (key : κ) :
    (cache.find? key).isSome = true ↔ key ∈ cache.keys := by
  simp [find?, keys, List.find?_isSome]

/-- What is held after a use depends on what was held before, not on the results. -/
theorem keys_use (cache : Cache κ α) (key : κ) (result : α) :
    (cache.use key result).keys =
      (key :: cache.keys.filter fun other => other ≠ key).take cache.capacity := by
  simp only [keys, use, List.map_take, List.map_cons, List.filter_map]
  rfl

end Cache

/--
Whether two validators have the same evaluators and the same key, one that counts.  Whether they keep the
tokens of rule texts and log refusals is left open.
-/
structure Validator.Alike (keys : String → Prop) (validator validator' : Validator) : Prop where
  registry : validator.registry = validator'.registry
  tagKey : validator.config.tagKey = validator'.config.tagKey
  counts : keys validator.config.tagKey

namespace Session

/-- The caches are of the size they have in the beginning, and hold no more than that. -/
structure Bounded (session : Session) : Prop where
  ruleCapacity_eq : session.rules.capacity = ruleCapacity
  rules_le : session.rules.entries.length ≤ ruleCapacity
  fieldCapacity_eq : session.fields.capacity = fieldCapacity
  fields_le : session.fields.entries.length ≤ fieldCapacity

variable {session session' : Session}

theorem bounded_start (schema : Schema) : (start schema).Bounded :=
  ⟨rfl, Nat.zero_le _, rfl, Nat.zero_le _⟩

theorem Bounded.afterRules (h : session.Bounded) (config : Config) (text : String) :
    (session.afterRules config text).Bounded := by
  have hle := session.rules.length_use_le text (.parse text)
  rw [h.ruleCapacity_eq] at hle
  unfold Session.afterRules
  split
  · split <;> exact ⟨h.ruleCapacity_eq, hle, h.fieldCapacity_eq, h.fields_le⟩
  · exact h

theorem Bounded.afterFields (h : session.Bounded) (typeName : String) (tagKey : Option String) :
    (session.afterFields typeName tagKey).Bounded := by
  have hle := session.fields.length_use_le (typeName, tagKey)
    (session.schema.fields (tagKey.getD Config.standard.tagKey) typeName)
  rw [h.fieldCapacity_eq] at hle
  simp only [Session.afterFields]
  split
  · exact ⟨h.ruleCapacity_eq, h.rules_le, h.fieldCapacity_eq, hle⟩
  · split <;> exact ⟨h.ruleCapacity_eq, h.rules_le, h.fieldCapacity_eq, hle⟩

theorem Bounded.after (h : session.Bounded) (config : Config) (event : Event) :
    (session.after config event).Bounded := by
  cases event with
  | rulesRead text => exact h.afterRules config text
  | fieldsRead typeName tagKey => exact h.afterFields typeName tagKey
  | skipped | wrote | called => exact ⟨h.ruleCapacity_eq, h.rules_le, h.fieldCapacity_eq, h.fields_le⟩

/-! ## What two sessions have in common -/

/--
Two sessions over two schemas with the same hook calls and, as far as one looks at them, the same log entries.
The caches of each hold what its schema declares, within their bounds, and the same record types.
-/
structure Twin (keep : LogEntry → Bool) (schema schema' : Schema) (session session' : Session) :
    Prop where
  trace : session.trace = session'.trace
  log : session.log.filter keep = session'.log.filter keep
  faithful : session.Faithful schema
  faithful' : session'.Faithful schema'
  bounded : session.Bounded
  bounded' : session'.Bounded
  fieldKeys : session.fields.keys = session'.fields.keys

variable {keys : String → Prop} {keep : LogEntry → Bool} {schema schema' : Schema}

theorem twin_start (keep : LogEntry → Bool) (schema schema' : Schema) :
    Twin keep schema schema' (start schema) (start schema') :=
  ⟨rfl, rfl, faithful_start schema, faithful_start schema', bounded_start schema,
    bounded_start schema', rfl⟩

theorem fields_afterRules (session : Session) (config : Config) (text : String) :
    (session.afterRules config text).fields = session.fields := by
  unfold afterRules
  split
  · split <;> rfl
  · rfl

theorem log_afterRules (hkeep : ∀ text, keep (.tokenizing text) = false) (session : Session)
    (config : Config) (text : String) :
    (session.afterRules config text).log.filter keep = session.log.filter keep := by
  unfold afterRules
  split
  · split
    · rfl
    · simp [hkeep]
  · rfl

theorem Twin.afterRules (h : Twin keep schema schema' session session')
    (hkeep : ∀ text, keep (.tokenizing text) = false) (config config' : Config) (text : String) :
    Twin keep schema schema' (session.afterRules config text) (session'.afterRules config' text) where
  trace := by rw [trace_afterRules, trace_afterRules, h.trace]
  log := by rw [log_afterRules hkeep, log_afterRules hkeep, h.log]
  faithful := h.faithful.afterRules config text
  faithful' := h.faithful'.afterRules config' text
  bounded := h.bounded.afterRules config text
  bounded' := h.bounded'.afterRules config' text
  fieldKeys := by rw [fields_afterRules, fields_afterRules, h.fieldKeys]

theorem keys_afterFields (session : Session) (typeName : String) (tagKey : Option String) :
    (session.afterFields typeName tagKey).fields.keys =
      ((typeName, tagKey) :: session.fields.keys.filter fun other => other ≠ (typeName, tagKey)).take
        session.fields.capacity := by
  rw [← Cache.keys_use]
  simp only [afterFields]
  split
  · rfl
  · split <;> rfl

/-- Reading the fields of a record type is noted if they were not held and a name is unknown. -/
theorem log_afterFields (session : Session) (typeName : String) (tagKey : Option String) :
    (session.afterFields typeName tagKey).log = session.log ++
      if (typeName, tagKey) ∈ session.fields.keys then []
      else (((session.schema.record? typeName).bind
        (RecordDecl.unknownName? session.schema.class?)).map
          (LogEntry.unresolved typeName)).toList := by
  have hheld := session.fields.isSome_find? (typeName, tagKey)
  simp only [afterFields]
  split
  · rename_i hfound
    simp [hheld.1 hfound]
  · rename_i hfound
    rw [hheld] at hfound
    split <;> rename_i hname <;> simp [hfound, hname]

theorem Twin.afterFields (h : Twin keep schema schema' session session')
    (hschema : schema.Alike keys schema') (typeName : String) (tagKey : Option String) :
    Twin keep schema schema' (session.afterFields typeName tagKey)
      (session'.afterFields typeName tagKey) where
  trace := by rw [trace_afterFields, trace_afterFields, h.trace]
  log := by
    have hunknown := hschema.bind_record?_eq
      (fun _ _ hdecl => hdecl.unknownName?_eq schema'.class?) typeName
    rw [log_afterFields, log_afterFields, List.filter_append, List.filter_append, h.log,
      h.fieldKeys, h.faithful.schema_eq, h.faithful'.schema_eq, hschema.class?_eq, hunknown]
  faithful := h.faithful.afterFields typeName tagKey
  faithful' := h.faithful'.afterFields typeName tagKey
  bounded := h.bounded.afterFields typeName tagKey
  bounded' := h.bounded'.afterFields typeName tagKey
  fieldKeys := by
    rw [keys_afterFields, keys_afterFields, h.fieldKeys, h.bounded.fieldCapacity_eq,
      h.bounded'.fieldCapacity_eq]

theorem Twin.after (h : Twin keep schema schema' session session')
    (hkeep : ∀ text, keep (.tokenizing text) = false) (hschema : schema.Alike keys schema')
    (config config' : Config) (event : Event) :
    Twin keep schema schema' (session.after config event) (session'.after config' event) := by
  cases event with
  | rulesRead text => exact h.afterRules hkeep config config' text
  | fieldsRead typeName tagKey => exact h.afterFields hschema typeName tagKey
  | skipped category className =>
      have hlog : (session.log ++ [LogEntry.skipped category className]).filter keep =
          (session'.log ++ [LogEntry.skipped category className]).filter keep := by
        rw [List.filter_append, List.filter_append, h.log]
      exact ⟨h.trace, hlog, h.faithful.after config _, h.faithful'.after config' _,
        h.bounded.after config _, h.bounded'.after config' _, h.fieldKeys⟩
  | wrote => exact h
  | called typeName context =>
      have htrace := congrArg (· ++ [HookCall.mk typeName context]) h.trace
      exact ⟨htrace, h.log, h.faithful.after config _, h.faithful'.after config' _,
        h.bounded.after config _, h.bounded'.after config' _, h.fieldKeys⟩

theorem Twin.afterAll (h : Twin keep schema schema' session session')
    (hkeep : ∀ text, keep (.tokenizing text) = false) (hschema : schema.Alike keys schema')
    (config config' : Config) (events : List Event) :
    Twin keep schema schema' (events.foldl (Session.after config) session)
      (events.foldl (Session.after config') session') := by
  induction events generalizing session session' with
  | nil => exact h
  | cons event events ih => exact ih (h.after hkeep hschema config config' event)

theorem Bounded.afterCall (h : session.Bounded) (config : Config) (stop : Option Stop) :
    (session.afterCall config stop).Bounded := by
  unfold Session.afterCall
  split
  · split
    · exact ⟨h.ruleCapacity_eq, h.rules_le, h.fieldCapacity_eq, h.fields_le⟩
    · exact h
  · exact h

theorem fields_afterCall (session : Session) (config : Config) (stop : Option Stop) :
    (session.afterCall config stop).fields = session.fields := by
  unfold Session.afterCall
  split
  · split <;> rfl
  · rfl

/-- A call that ended is noted if it was refused and refusals are logged. -/
theorem log_afterCall (session : Session) (config : Config) (stop : Option Stop) :
    (session.afterCall config stop).log = session.log ++
      match stop with
      | some (.failed failure) => if config.logFailures then [.failed failure] else []
      | _ => [] := by
  unfold Session.afterCall
  split
  · split <;> simp [*]
  · simp

/-- Whether refusals are logged alike, as far as one looks at them. -/
def LoggedAlike (keep : LogEntry → Bool) (logs logs' : Bool) : Prop :=
  ∀ failure, keep (.failed failure) = true → logs = logs'

theorem Twin.afterCall (h : Twin keep schema schema' session session') {config config' : Config}
    (hlogged : LoggedAlike keep config.logFailures config'.logFailures) (stop : Option Stop) :
    Twin keep schema schema' (session.afterCall config stop) (session'.afterCall config' stop) where
  trace := by rw [trace_afterCall, trace_afterCall, h.trace]
  log := by
    rw [log_afterCall, log_afterCall, List.filter_append, List.filter_append, h.log]
    congr 1
    split
    · rename_i failure
      cases hlooked : keep (.failed failure) with
      | false => cases config.logFailures <;> cases config'.logFailures <;> simp [hlooked]
      | true => rw [hlogged failure hlooked]
    · rfl
  faithful := h.faithful.afterCall config stop
  faithful' := h.faithful'.afterCall config' stop
  bounded := h.bounded.afterCall config stop
  bounded' := h.bounded'.afterCall config' stop
  fieldKeys := by rw [fields_afterCall, fields_afterCall, h.fieldKeys]

/-! ## The same call in two sessions -/

section Calls

variable (h : Twin keep schema schema' session session')
  (hkeep : ∀ text, keep (.tokenizing text) = false) (hschema : schema.Alike keys schema')
  {validator validator' : Validator} (hvalidator : validator.Alike keys validator')
  (hlogged : LoggedAlike keep validator.config.logFailures validator'.config.logFailures)

include h hkeep hschema hvalidator hlogged

/-- The same call has the same outcome, and leaves sessions that cannot be told apart. -/
theorem Twin.run (writable : Bool) (declared : Annotation) (value : Value) (rules : RuleSet)
    (context : Value) :
    let call := session.run validator writable declared value rules context
    let call' := session'.run validator' writable declared value rules context
    call.1 = call'.1 ∧ Twin keep schema schema' call.2 call'.2 := by
  have hcounts : keys validator'.config.tagKey := hvalidator.tagKey ▸ hvalidator.counts
  have hwalk : session.walk validator context = session'.walk validator' context := by
    rw [h.faithful.walk_eq, h.faithful'.walk_eq, ← hschema.walk_eq hcounts]
    unfold Schema.walk
    rw [hvalidator.registry, hvalidator.tagKey]
  have hbudget : Walk.budget session.schema validator.config.tagKey declared value =
      Walk.budget session'.schema validator'.config.tagKey declared value := by
    rw [h.faithful.schema_eq, h.faithful'.schema_eq, hvalidator.tagKey, hschema.budget_eq hcounts]
  simp only [Session.run, hwalk, hbudget, true_and]
  exact (h.afterAll hkeep hschema _ _ _).afterCall hlogged _

theorem Twin.validateContext (context value : Value) :
    let call := session.validateContext validator context value
    let call' := session'.validateContext validator' context value
    call.1 = call'.1 ∧ Twin keep schema schema' call.2 call'.2 :=
  h.run hkeep hschema hvalidator hlogged false .absent value .empty context

theorem Twin.validateValue (value : Value) (rules : String) (declared : Annotation)
    (context : Value) :
    let call := session.validateValue validator value rules declared context
    let call' := session'.validateValue validator' value rules declared context
    call.1 = call'.1 ∧ Twin keep schema schema' call.2 call'.2 := by
  have hread := h.afterRules hkeep validator.config validator'.config rules
  unfold Session.validateValue
  rw [h.faithful.tokenize_eq, h.faithful'.tokenize_eq]
  exact hread.run hkeep hschema hvalidator hlogged true declared value _ context

end Calls

end Session

end RuleCheck
