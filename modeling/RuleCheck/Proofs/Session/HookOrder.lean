import RuleCheck.Proofs.Session.Locations
import RuleCheck.Proofs.Session.Tokens
import RuleCheck.Proofs.Walk.HookOrder

/-! # The hooks that calls run

The trace of a session grows by the calls of the hooks that a walk runs.  These come in the order that the
value handed in tells, each after all that is inside of its record has passed, and find what calls for the
fields of the record would return.
-/

namespace RuleCheck

namespace Schema

variable (schema : Schema) (validator : Validator) (context : Value)

/-- The hooks that a visit runs, each with its record as the hook finds it. -/
def hookRuns (writable : Bool) (declared : Annotation) (value : Value) (rules : RuleSet) : List HookRun :=
  (schema.walk validator context).hookRuns
    (Walk.budget schema validator.config.tagKey declared value) ⟨writable, declared, value, rules⟩

/-- The hooks that are due for a value: for what is inside of it in order, and then its own. -/
def hooksDue (declared : Annotation) (value : Value) : List HookRun :=
  (schema.walk validator context).hooksDue declared value

/-- The hooks that are run by visits to several values, up to the first of them that is stopped. -/
def hookRunsAll : List Value → List HookRun
  | [] => []
  | value :: values =>
    schema.hookRuns validator .null false .absent value .empty ++
      (schema.visit validator .null false .absent value .empty).onward fun _ => hookRunsAll values

variable {schema validator}

theorem calls_visit (writable : Bool) (declared : Annotation) (value : Value) (rules : RuleSet) :
    (schema.visit validator context writable declared value rules).calls =
      (schema.hookRuns validator context writable declared value rules).map HookRun.call :=
  Walk.calls_visitAt (Walk.budget schema validator.config.tagKey declared value)
    ⟨writable, declared, value, rules⟩

theorem visit_eq_of_passed {config : Config} (hassign : schema.AssignsNothing) {levels : Nat}
    {writable : Bool} {declared : Annotation} {value : Value} {rules : RuleSet}
    (hpass : ((schema.walk ⟨config, .standard⟩ context).visit levels writable declared value rules).stop =
      none) :
    schema.visit ⟨config, .standard⟩ context true declared value rules =
      (schema.walk ⟨config, .standard⟩ context).visit levels writable declared value rules := by
  have hleave : (schema.walk ⟨config, .standard⟩ context).visit levels writable declared value rules =
      (schema.walk ⟨config, .standard⟩ context).visit levels true declared value rules := by
    cases writable with
    | true => rfl
    | false =>
        rcases Walk.visit_agrees_of_readOnly _ levels declared value rules with ⟨stop, hstop, -⟩ | hsame
        · rw [hpass] at hstop
          cases hstop
        · exact hsame
  rw [hleave] at hpass ⊢
  exact (visit_eq_of_enough config context hassign ⟨true, declared, value, rules⟩
    (by simp [Walk.visitAt, hpass])).symm

theorem inOrder_visit {config : Config} (hassign : schema.AssignsNothing) (hdistinct : schema.DistinctNames)
    (place : Place) (hown : schema.OwnRulesOnly config.tagKey place.value)
    (htargets : place.rules.targets = []) :
    InOrder (schema.walk ⟨config, .standard⟩ context).Suits
      (schema.hooksDue ⟨config, .standard⟩ context place.declared place.value)
      (schema.hookRuns ⟨config, .standard⟩ context place.writable place.declared place.value place.rules)
      ((schema.visit ⟨config, .standard⟩ context place.writable place.declared place.value
        place.rules).stop = none) :=
  Walk.orderly (schema.walk_registry config context) (walk_assignsNothing config context hassign)
    (walk_distinctFields config context hdistinct) (schema.walk_records config context) _ place
    (walk_ownRulesOnly config context hown) htargets

theorem inOrder_hookRunsAll {config : Config} (hassign : schema.AssignsNothing)
    (hdistinct : schema.DistinctNames) {values : List Value}
    (hown : ∀ value ∈ values, schema.OwnRulesOnly config.tagKey value) :
    InOrder (schema.walk ⟨config, .standard⟩ .null).Suits
      (values.flatMap (schema.hooksDue ⟨config, .standard⟩ .null .absent))
      (schema.hookRunsAll ⟨config, .standard⟩ values)
      (∀ value ∈ values, (schema.visit ⟨config, .standard⟩ .null false .absent value .empty).stop = none) := by
  induction values with
  | nil => exact .nil _
  | cons value values ih =>
      refine (inOrder_visit .null hassign hdistinct ⟨false, .absent, value, .empty⟩
        (hown value List.mem_cons_self) rfl).andThen (fun _ => ?_) fun hpass =>
          hpass value List.mem_cons_self
      exact (ih fun other hother => hown other (List.mem_cons_of_mem value hother)).mono
        fun hpass other hother => hpass other (List.mem_cons_of_mem value hother)

end Schema

namespace Session

variable {schema : Schema} {session alone : Session} (config : Config) (context : Value)

variable (alone) in
/--
A record as it was handed in, and as its hooks find it: each of the fields that are visited holds what a call
for it alone returns, and the others are as they were.
-/
structure Prepared (fields : List Field) (old new : Value) : Prop where
  classOf_eq : new.classOf = old.classOf
  validated : ∀ field ∈ fields, ∃ content, old.fieldContent? field.name = some content ∧
    let own := (alone.validateValue ⟨config, .standard⟩ content field.rules field.declared context).1
    own.stop = none ∧ new.fieldContent? field.name = some own.value
  others : ∀ name, (∀ field ∈ fields, field.name ≠ name) →
    new.fieldContent? name = old.fieldContent? name

variable (schema alone) in
/--
Hooks that ran, against those that were due: they are the first of these, and all of them if nothing stopped
the walk, and each of them found its record prepared.
-/
structure RanInOrder (due ran : List HookRun) (stop : Option Stop) : Prop where
  first : ran.map HookRun.call <+: due.map HookRun.call
  all : stop = none → ran.map HookRun.call = due.map HookRun.call
  prepared : ∀ (i : Nat) run, ran[i]? = some run → ∃ old fields, due[i]? = some ⟨run.call, old⟩ ∧
    schema.fieldsOf? config.tagKey old.classOf = some fields ∧
    Prepared alone config context (Visit.included .parse fields) old run.record

variable {config context}

theorem prepared_of_walk (hassign : schema.AssignsNothing) (halone : Reachable schema alone)
    {old new : Value} (h : (schema.walk ⟨config, .standard⟩ context).Prepared old new) :
    ∃ fields, schema.fieldsOf? config.tagKey old.classOf = some fields ∧
      Prepared alone config context (Visit.included .parse fields) old new := by
  obtain ⟨hclass, view, hview, hvisited, hothers⟩ := h
  refine ⟨view.fields, ?_, hclass, fun field hfield => ?_, hothers⟩
  · have hclassView : schema.view? config.tagKey old.classOf = some view := hview
    rw [Schema.fieldsOf?_eq, hclassView, Option.map_some]
  · obtain ⟨levels, writable, content, hcontent, hpass, hleft⟩ := hvisited field hfield
    have hown := Schema.visit_eq_of_passed context hassign hpass
    refine ⟨content, hcontent, ?_⟩
    rw [halone.validateValue_eq]
    exact ⟨(congrArg Visit.stop hown).trans hpass, hleft.trans (congrArg (some ∘ Visit.value) hown.symm)⟩

theorem ranInOrder_of_walk (hassign : schema.AssignsNothing) (halone : Reachable schema alone)
    {due ran : List HookRun} {stop : Option Stop}
    (h : InOrder (schema.walk ⟨config, .standard⟩ context).Suits due ran (stop = none)) :
    RanInOrder schema alone config context due ran stop := by
  obtain ⟨met, ⟨rest, rfl⟩, hran, hall⟩ := h
  have hcalls : ran.map HookRun.call = met.map HookRun.call := by
    clear hall
    induction hran with
    | nil => rfl
    | cons hsuits _ ih => rw [List.map_cons, List.map_cons, hsuits.1, ih]
  refine ⟨?_, fun hpass => ?_, fun i run hrun => ?_⟩
  · rw [hcalls, List.map_append]
    exact List.prefix_append _ _
  · rw [hcalls, ← hall hpass]
  · obtain ⟨hi, rfl⟩ := List.getElem?_eq_some_iff.1 hrun
    have hmet : i < met.length := by
      rw [hran.length_eq]
      exact hi
    obtain ⟨hcall, hprepared⟩ := hran.get hmet hi
    obtain ⟨fields, hfields, hprepared⟩ := prepared_of_walk hassign halone hprepared
    refine ⟨met[i].record, fields, ?_, hfields, hprepared⟩
    rw [List.getElem?_append_left hmet, List.getElem?_eq_getElem hmet]
    exact congrArg some (congrArg (HookRun.mk · met[i].record) hcall.symm)

/-! ## The trace -/

theorem Reachable.trace_validateContext (h : Reachable schema session) (validator : Validator)
    (context value : Value) :
    (session.validateContext validator context value).2.trace = session.trace ++
      (schema.visit validator context false .absent value .empty).calls := by
  have hschema := h.faithful.schema_eq
  simp only [validateContext, run, trace_afterCall, trace_afterAll, h.faithful.walk_eq]
  rw [hschema]
  rfl

theorem Reachable.trace_validate (h : Reachable schema session) (validator : Validator)
    (values : List Value) :
    (validate validator values session).2.trace =
      session.trace ++ (schema.hookRunsAll validator values).map HookRun.call := by
  induction values generalizing session with
  | nil => exact (List.append_nil _).symm
  | cons value values ih =>
      have hfirst := h.validateContext_eq validator .null value
      have htrace := h.trace_validateContext validator .null value
      have hrest := ih (h.context validator .null value)
      rw [Schema.calls_visit] at htrace
      simp only [validate, hfirst, Schema.hookRunsAll, List.map_append, Visit.map_onward,
        ← List.append_assoc, ← htrace]
      cases hstop : (schema.visit validator .null false .absent value .empty).stop with
      | some stop => simp only [Visit.onward_of_stopped hstop, List.append_nil]
      | none => simpa only [Visit.onward_of_passed hstop] using hrest

/--
Without redirected rules and fields marked `main`, and as long as hooks assign no fields, the calls of hooks
that a call makes are the first of those that are due for what was handed in, and all of them if it passes.
Each hook finds its record with what calls for its fields return.
-/
theorem hooks_run_in_order (hassign : schema.AssignsNothing) (hdistinct : schema.DistinctNames)
    (hreach : Reachable schema session) (halone : Reachable schema alone) (config : Config) :
    (∀ value rules declared context, (RuleSet.parse rules).targets = [] →
      schema.OwnRulesOnly config.tagKey value →
      let call := session.validateValue ⟨config, .standard⟩ value rules declared context
      let ran := schema.hookRuns ⟨config, .standard⟩ context true declared value (.parse rules)
      call.2.trace = session.trace ++ ran.map HookRun.call ∧
        RanInOrder schema alone config context
          (schema.hooksDue ⟨config, .standard⟩ context declared value) ran call.1.stop) ∧
    (∀ value context, schema.OwnRulesOnly config.tagKey value →
      let call := session.validateContext ⟨config, .standard⟩ context value
      let ran := schema.hookRuns ⟨config, .standard⟩ context false .absent value .empty
      call.2.trace = session.trace ++ ran.map HookRun.call ∧
        RanInOrder schema alone config context
          (schema.hooksDue ⟨config, .standard⟩ context .absent value) ran call.1.stop) ∧
    ∀ values, (∀ value ∈ values, schema.OwnRulesOnly config.tagKey value) →
      let call := validate ⟨config, .standard⟩ values session
      let ran := schema.hookRunsAll ⟨config, .standard⟩ values
      call.2.trace = session.trace ++ ran.map HookRun.call ∧
        RanInOrder schema alone config .null
          (values.flatMap (schema.hooksDue ⟨config, .standard⟩ .null .absent)) ran call.1.2 := by
  refine ⟨fun value rules declared context htargets hown => ?_, fun value context hown => ?_,
    fun values hown => ?_⟩
  · intro call ran
    refine ⟨?_, ranInOrder_of_walk hassign halone ?_⟩
    · rw [← Schema.calls_visit]
      exact hreach.trace_validateValue _ value rules declared context
    · have hcall : call.1 = _ := hreach.validateValue_eq ⟨config, .standard⟩ value rules declared context
      rw [hcall]
      exact Schema.inOrder_visit context hassign hdistinct ⟨true, declared, value, _⟩ hown htargets
  · intro call ran
    refine ⟨?_, ranInOrder_of_walk hassign halone ?_⟩
    · rw [← Schema.calls_visit]
      exact hreach.trace_validateContext _ context value
    · have hcall : call.1 = _ := hreach.validateContext_eq ⟨config, .standard⟩ context value
      rw [hcall]
      exact Schema.inOrder_visit context hassign hdistinct ⟨false, .absent, value, _⟩ hown rfl
  · intro call ran
    refine ⟨hreach.trace_validate _ values, ranInOrder_of_walk hassign halone ?_⟩
    exact (Schema.inOrder_hookRunsAll hassign hdistinct hown).mono fun hpass =>
      (hreach.validate_passed _ values hpass).1

/-- A line of an order, which cannot be changed and must not ask for too much. -/
def line : RecordHead :=
  ⟨"Line", .data, true⟩

def order : RecordHead :=
  ⟨"Order", .data, false⟩

def orders : Schema :=
  ⟨[("Line", .record line), ("Order", .record order)],
    [⟨line, [⟨"count", .bare (.builtIn .int), [("rules", "default=1")]⟩],
        some (.ofActions [⟨some (.fieldExceeds "count" (.ofInt 5)), none, some ⟨.value, some "too many", []⟩⟩]),
        some (.ofActions [])⟩,
      ⟨order, [⟨"lines", .applied (.builtIn .list) [.bare (.record line)], []⟩],
        some (.ofActions []), none⟩]⟩

def orderWith (counts : List Int) : Value :=
  .record order [("lines", .sequence .list none (counts.map fun n => .record line [("count", .ofInt n)]))]

/--
The hooks of two lines and then that of their order are due.  The first hook finds a copy of its line with the
count that was given by default; if the second of three lines asks for too much, its first hook is the last
that is called.
-/
theorem hooks_run_in_order_lines :
    let passed := (start orders).validateContext .standard .null (orderWith [0, 2])
    let failed := (start orders).validateContext .standard .null (orderWith [0, 9, 2])
    let due := orders.hooksDue .standard .null .absent (orderWith [0, 2])
    orders.AssignsNothing ∧ orders.DistinctNames ∧ Reachable orders (.start orders) ∧
      (∀ value, orders.OwnRulesOnly "rules" value) ∧
      passed.1.stop = none ∧
      due.map (fun run => run.call.typeName) = ["Line", "Line", "Line", "Line", "Order"] ∧
      passed.2.trace = due.map HookRun.call ∧
      (∃ old fields seen, due[0]? = some ⟨⟨"Line", none⟩, old⟩ ∧
        Prepared (start orders) .standard .null fields old seen ∧
        (seen.fieldContent? "count").bind Value.scalar? = some (.int 1)) ∧
      failed.1.stop ≠ none ∧
      failed.2.trace.map HookCall.typeName = ["Line", "Line", "Line"] := by
  intro passed failed due
  have hassign : orders.AssignsNothing := Schema.assignsNothing_of_methods (by
    simp [orders, RecordDecl.methods, or_imp, forall_and, Hook.assignsNothing_ofActions])
  have hdistinct : orders.DistinctNames := by
    simp [Schema.DistinctNames, orders]
  have hstart := @Reachable.start orders
  have hown := Schema.ownRulesOnly_of_declared (by decide +kernel :
    ∀ decl ∈ orders.records, ∀ field ∈ decl.resolved orders.class? "rules",
      (RuleSet.parse field.rules).has RuleSet.mainToken = false ∧ (RuleSet.parse field.rules).targets = [])
  obtain ⟨htrace, horder⟩ := (hooks_run_in_order hassign hdistinct hstart hstart .standard).2.1
    (orderWith [0, 2]) .null (hown _)
  have hpass : passed.1.stop = none := by decide +kernel
  have hcalls : passed.2.trace = due.map HookRun.call := htrace.trans (horder.all hpass)
  have hnames : passed.2.trace.map HookCall.typeName = ["Line", "Line", "Line", "Line", "Order"] := by
    decide +kernel
  -- the first run and what it found, told by what can be compared
  obtain ⟨⟨⟨typeName, called⟩, seen⟩, hfirst, hrun⟩ := Option.bind_eq_some_iff.1 (by decide +kernel :
    ((orders.hookRuns .standard .null false .absent (orderWith [0, 2]) .empty)[0]?.bind fun run =>
      if run.call.typeName = "Line" ∧ run.call.context.isNone then
        (run.record.fieldContent? "count").bind Value.scalar?
      else none) = some (.int 1))
  obtain ⟨old, fields, hdue, -, hprepared⟩ := horder.prepared 0 _ hfirst
  obtain ⟨⟨rfl, hcalled⟩, hcount⟩ : (typeName = "Line" ∧ called = none) ∧
      (seen.fieldContent? "count").bind Value.scalar? = some (.int 1) := by
    simpa using hrun
  subst hcalled
  refine ⟨hassign, hdistinct, hstart, hown, hpass, ?_, hcalls, ⟨old, _, seen, hdue, hprepared, hcount⟩,
    by decide +kernel, by decide +kernel⟩
  rw [hcalls, List.map_map] at hnames
  exact hnames

end Session

end RuleCheck
