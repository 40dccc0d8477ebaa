import RuleCheck.Proofs.Walk.HookRuns

/-! # Hooks on the records that they are run on

A walk depends on its hooks only by what they do on the records that are listed with their runs.  With other
hooks that do the same on these records every visit is the same, whatever the hooks would do on others.
-/

namespace RuleCheck

/-- The hook of a type of records that is called with a context, or the other one. -/
def RecordView.hook (view : RecordView) (called : Option Value) : Option Hook :=
  match called with
  | none => view.selfHook
  | some _ => view.contextHook

/-- A hook, if there is one, and what can be put in its place: for a method another method. -/
inductive Hook.Replaced : Option Hook → Option Hook → Prop
  | same (hook : Option Hook) : Replaced hook hook
  | method {method method' : Hook} (h : method.isMethod = true) (h' : method'.isMethod = true) :
      Replaced (some method) (some method')

/-- What puts other hooks in the place of those of a type of records, and leaves all else as it is. -/
structure Rehooks (rehook : RecordView → RecordView) : Prop where
  typeName_eq : ∀ view, (rehook view).typeName = view.typeName
  fields_eq : ∀ view, (rehook view).fields = view.fields
  replaced : ∀ view called, Hook.Replaced (view.hook called) ((rehook view).hook called)

theorem Visit.andThen_congr {visit : Visit} {next next' : Value → Visit}
    (h : visit.stop = none → next' visit.value = next visit.value) :
    visit.andThen next' = visit.andThen next := by
  cases hstop : visit.stop with
  | none => simp only [andThen, hstop, h hstop]
  | some stop => simp only [andThen, hstop]

namespace Walk

def rehooked (walk : Walk) (rehook : RecordView → RecordView) : Walk :=
  { walk with view? := fun base => (walk.view? base).map rehook }

def SameOn (walk : Walk) (rehook : RecordView → RecordView) (run : HookRun) : Prop :=
  ∀ base view, walk.view? base = some view → view.typeName = run.call.typeName →
    ∀ method ∈ view.hook run.call.context, ∀ method' ∈ (rehook view).hook run.call.context,
      method'.run walk.context run.record = method.run walk.context run.record

variable {walk : Walk} {levels : Nat}

/-! ## A visit depends on the places that it comes to -/

section

variable {descend : Bool → Annotation → Value → RuleSet → Visit}

theorem ofItems_congr {visit visit' : Place → Visit} (place : Nat → Value → Place) (index : Nat)
    (items : List Value)
    (h : ∀ next ∈ reached visit (items.mapIdx fun i => place (index + i)), visit' next = visit next) :
    Visits.ofItems (fun i item => visit' (place i item)) index items =
      Visits.ofItems (fun i item => visit (place i item)) index items := by
  induction items generalizing index with
  | nil => rfl
  | cons item items ih =>
      simp only [Visits.mapIdx_cons_from, reached, List.forall_mem_cons] at h
      obtain ⟨hfirst, hrest⟩ := h
      simp only [Visits.ofItems, hfirst]
      cases hstop : (visit (place index item)).stop with
      | some stop => rfl
      | none =>
          rw [Visit.onward_of_passed hstop] at hrest
          simp only [ih (index + 1) hrest]

theorem ofEntries_congr {visit visit' : Place → Visit} (place : Value → Place) (assigned : Bool)
    (entries : List (Value × Value))
    (h : ∀ next ∈ reached visit (entries.map fun entry => place entry.2), visit' next = visit next) :
    Visits.ofEntries assigned (fun item => visit' (place item)) entries =
      Visits.ofEntries assigned (fun item => visit (place item)) entries := by
  induction entries with
  | nil => rfl
  | cons entry entries ih =>
      obtain ⟨key, item⟩ := entry
      simp only [List.map_cons, reached, List.forall_mem_cons] at h
      obtain ⟨hfirst, hrest⟩ := h
      simp only [Visits.ofEntries, hfirst]
      cases hstop : (visit (place item)).stop with
      | some stop => rfl
      | none =>
          rw [Visit.onward_of_passed hstop] at hrest
          simp only [ih hrest]

theorem step_congr {typeName : String} {writable : Bool} {record : Value} {step : RecordStep}
    (h : ∀ next ∈ step.place? writable record,
      descend next.writable next.declared next.value next.rules = walk.visitAt levels next) :
    Visit.step descend walk.tagKey typeName writable record step =
      Visit.step (walk.visit levels) walk.tagKey typeName writable record step := by
  cases step with
  | descend field rules =>
      simp only [Visit.step, Visit.field]
      cases hcontent : record.fieldContent? field.name with
      | none => rfl
      | some content =>
          have hinner := h ⟨record.isMutable || writable, field.declared, content, rules⟩
            (by simp [RecordStep.place?, hcontent])
          simp only [visitAt] at hinner
          simp only [hinner]
  | _ => rfl

theorem steps_congr {typeName : String} {writable : Bool} {plan : List RecordStep} {record : Value}
    (h : ∀ next ∈ walk.stepPlaces levels typeName writable plan record,
      descend next.writable next.declared next.value next.rules = walk.visitAt levels next) :
    Visit.steps descend walk.tagKey typeName writable plan record =
      Visit.steps (walk.visit levels) walk.tagKey typeName writable plan record := by
  induction plan generalizing record with
  | nil => rfl
  | cons step plan ih =>
      simp only [stepPlaces, List.forall_mem_append, Option.mem_toList] at h
      rw [Visit.steps, Visit.steps, step_congr h.1]
      refine Visit.andThen_congr fun hpass => ih ?_
      have hrest := h.2
      rwa [Visit.onward_of_passed hpass] at hrest

theorem optional_congr {place : Place}
    (h : ∀ next ∈ place.present,
      descend next.writable next.declared next.value next.rules = walk.visitAt levels next) :
    Visit.optional descend place.writable place.resolved place.value place.rules =
      Visit.optional (walk.visit levels) place.writable place.resolved place.value place.rules := by
  unfold Visit.optional
  cases hnull : place.value.isNull with
  | true => rfl
  | false =>
      simp only [Place.present, hnull, Bool.false_eq_true, if_false, List.forall_mem_singleton] at h
      exact h

theorem reference_congr {place : Place}
    (h : ∀ next ∈ place.content,
      descend next.writable next.declared next.value next.rules = walk.visitAt levels next) :
    Visit.reference descend place.resolved place.value place.rules =
      Visit.reference (walk.visit levels) place.resolved place.value place.rules := by
  obtain ⟨writable, declared, value, rules⟩ := place
  cases value with
  | box content =>
      cases hnull : content.isNull with
      | true =>
          obtain rfl := Value.eq_null_of_isNull hnull
          rfl
      | false =>
          rw [Place.content_of_box rfl hnull] at h
          have hinner := h _ (List.mem_singleton_self _)
          simp only [visitAt] at hinner
          rw [Visit.reference_present hnull, Visit.reference_present hnull, hinner]
  | _ => rfl

theorem sequence_congr {place : Place}
    (h : ∀ next ∈ reached (walk.visitAt levels) place.items,
      descend next.writable next.declared next.value next.rules = walk.visitAt levels next) :
    Visit.sequence descend place.writable place.resolved place.value place.rules =
      Visit.sequence (walk.visit levels) place.writable place.resolved place.value place.rules := by
  rcases place.entersItems_or_idle with ⟨remaining, items, henters⟩ | ⟨-, stop, -, hidle⟩
  · rw [henters.items_eq] at h
    rw [henters.sequence_eq, henters.sequence_eq]
    exact congrArg (Visit.ofItems place.value) (@ofItems_congr (walk.visitAt levels)
      (fun next => descend next.writable next.declared next.value next.rules) (fun i item =>
        ⟨place.value.itemsWritable place.writable, place.resolved.item i, item, remaining⟩) 0
      items (by simpa only [Nat.zero_add] using h))
  · rw [hidle, hidle]

theorem mapping_congr {place : Place}
    (h : ∀ next ∈ reached (walk.visitAt levels) place.entries,
      descend next.writable next.declared next.value next.rules = walk.visitAt levels next) :
    Visit.mapping descend place.resolved place.value place.rules =
      Visit.mapping (walk.visit levels) place.resolved place.value place.rules := by
  rcases place.entersEntries_or_idle with ⟨remaining, kind, derived, entries, henters⟩ | ⟨-, stop, -, hidle⟩
  · rw [henters.entries_eq] at h
    have hvisits := ofEntries_congr (fun item => ⟨kind.isMutable, place.resolved.element, item, remaining⟩)
      kind.isMutable entries h
    simp only [visitAt] at hvisits
    simp only [henters.mapping_eq, hvisits]
  · rw [hidle, hidle]

end

/-! ## Other hooks -/

section

variable {rehook : RecordView → RecordView} (hrehook : Rehooks rehook)

include hrehook

theorem hook_rehooked {base : Class} {view : RecordView} (hview : walk.view? base = some view)
    {called : Option Value} {record : Value}
    (h : ∀ run ∈ Visit.hookRun view.typeName called (view.hook called) record, walk.SameOn rehook run) :
    Visit.hook (rehook view).typeName called walk.context ((rehook view).hook called) record =
      Visit.hook view.typeName called walk.context (view.hook called) record := by
  have hreplaced := hrehook.replaced view called
  rw [hrehook.typeName_eq]
  generalize hold : view.hook called = old at hreplaced h
  generalize hnew : (rehook view).hook called = new at hreplaced
  cases hreplaced with
  | same => rfl
  | @method method method' hmethod hmethod' =>
      have hrun := h ⟨⟨view.typeName, called⟩, record⟩
        (by simp [Visit.hookRun, Option.filter, hmethod]) base view hview rfl method hold method' hnew
      simp only [Visit.hook, hmethod, hmethod', hrun]

theorem hooks_rehooked {base : Class} {view : RecordView} (hview : walk.view? base = some view)
    {record : Value} (h : ∀ run ∈ Visit.hookRuns view walk.context record, walk.SameOn rehook run) :
    Visit.hooks (rehook view) walk.context record = Visit.hooks view walk.context record := by
  obtain ⟨hself, hcontext⟩ := List.forall_mem_append.1 h
  have hfirst := @hook_rehooked walk rehook hrehook base view hview none record hself
  refine (congrArg (Visit.andThen · _) hfirst).trans (Visit.andThen_congr
    fun hpass : (Visit.hook view.typeName none walk.context view.selfHook record).stop = none => ?_)
  rw [Visit.onward_of_passed hpass] at hcontext
  exact @hook_rehooked walk rehook hrehook base view hview (some walk.context) _ hcontext

theorem record_rehooked {descend : Bool → Annotation → Value → RuleSet → Visit} {place : Place}
    (hplaces : ∀ view, walk.entered? place = some view →
      ∀ next ∈ walk.stepPlaces levels view.typeName place.writable
          (RecordStep.all walk.tokenize view.fields place.rules) place.value,
        descend next.writable next.declared next.value next.rules = walk.visitAt levels next)
    (hown : ∀ view, walk.entered? place = some view →
      ∀ run ∈ (Visit.steps (walk.visit levels) walk.tagKey view.typeName place.writable
          (RecordStep.all walk.tokenize view.fields place.rules) place.value).onward
            (Visit.hookRuns view walk.context), walk.SameOn rehook run) :
    Visit.record descend walk.tokenize walk.tagKey walk.context (walk.rehooked rehook).view?
        place.writable place.value place.rules =
      Visit.record (walk.visit levels) walk.tokenize walk.tagKey walk.context walk.view? place.writable
        place.value place.rules := by
  unfold Visit.record
  cases hmissing : place.value.isNull || place.rules.required &&
      (place.value.zeroFails || place.value.isZero) with
  | true =>
      -- neither walk gets as far as to the type of the record
      cases hnull : place.value.isNull with
      | true => simp only [if_true]
      | false =>
          rw [hnull, Bool.false_or, Bool.and_eq_true, Bool.or_eq_true] at hmissing
          obtain ⟨hrequired, hfails | hzero⟩ := hmissing
          · simp only [hrequired, hfails, Bool.and_self, if_true]
          · simp only [hrequired, hzero, Bool.and_self, if_true]
  | false =>
      have hentered : walk.entered? place = walk.view? place.value.classOf := by
        simp [entered?, hmissing]
      cases hview : walk.view? place.value.classOf with
      | none => simp only [rehooked, hview, Option.map_none]
      | some view =>
          rw [hview] at hentered
          have hsteps := steps_congr (hplaces view hentered)
          have hpresent : Visit.presentRecord descend walk.tokenize walk.tagKey walk.context (rehook view)
              place.writable place.value place.rules = Visit.presentRecord (walk.visit levels) walk.tokenize
                walk.tagKey walk.context view place.writable place.value place.rules := by
            simp only [Visit.presentRecord, hrehook.typeName_eq, hrehook.fields_eq, hsteps]
            refine Visit.andThen_congr fun hpass => hooks_rehooked hrehook hview ?_
            have hruns := hown view hentered
            rwa [Visit.onward_of_passed hpass] at hruns
          simp only [rehooked, hview, Option.map_some, hpresent]

theorem evaluate_rehooked {descend : Bool → Annotation → Value → RuleSet → Visit} {place : Place}
    {evaluator : Evaluator} (hserved : walk.evaluator? place.resolved.category = some evaluator)
    (hplaces : ∀ next ∈ walk.placesBelow levels place,
      descend next.writable next.declared next.value next.rules = walk.visitAt levels next)
    (hown : ∀ run ∈ walk.ownRuns levels place, walk.SameOn rehook run) :
    (walk.rehooked rehook).evaluate descend evaluator place.writable place.resolved place.value place.rules =
      walk.evaluate (walk.visit levels) evaluator place.writable place.resolved place.value place.rules := by
  unfold placesBelow at hplaces
  unfold ownRuns at hown
  simp only [hserved] at hplaces hown
  cases evaluator with
  | optional => exact optional_congr hplaces
  | reference => exact reference_congr hplaces
  | scalar kind => rfl
  | record =>
      refine record_rehooked hrehook (fun view hentered => ?_) fun view hentered => ?_
      · simp only [hentered] at hplaces
        exact hplaces
      · simp only [hentered] at hown
        exact hown
  | sequence => exact sequence_congr hplaces
  | mapping => exact mapping_congr hplaces

/--
With hooks that do the same on all records that hooks are run on, a visit is the same.  So the records that
are listed are all that a walk hands to its hooks.
-/
theorem visitAt_rehooked (levels : Nat) (place : Place)
    (h : ∀ run ∈ walk.hookRuns levels place, walk.SameOn rehook run) :
    (walk.rehooked rehook).visitAt levels place = walk.visitAt levels place := by
  induction levels generalizing place with
  | zero => rfl
  | succ levels ih =>
      obtain ⟨hbelow, hown⟩ := List.forall_mem_append.1 h
      cases hserved : walk.evaluator? place.resolved.category with
      | none =>
          have hskipped : walk.evaluator? (place.value.resolve place.declared).category = none := hserved
          simp only [visitAt, visit, rehooked, hskipped]
      | some evaluator =>
          have hother : (walk.rehooked rehook).evaluator? place.resolved.category = some evaluator := hserved
          rw [visitAt_of_served hserved, visitAt_of_served hother]
          exact evaluate_rehooked hrehook hserved (fun next hnext =>
            ih next fun run hrun => hbelow run (List.mem_flatMap.2 ⟨next, hnext, hrun⟩)) hown

end

end Walk

end RuleCheck
