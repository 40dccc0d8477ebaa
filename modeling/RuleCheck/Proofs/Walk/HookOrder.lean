import RuleCheck.Proofs.Category.Present
import RuleCheck.Proofs.Value.Depth
import RuleCheck.Proofs.Visit.Parts
import RuleCheck.Proofs.Walk.HookRuns
import RuleCheck.Proofs.Walk.Quiet
import Mathlib.Data.List.Forall2

/-! # The order in which hooks run

The hooks that are due for a value are told from the value and its declaration alone: those for what is
inside of it, in order, and then its own.  If records are visited with their own rules only and no hook
assigns a field, a walk runs the hooks that are due one after another, and all of them if nothing stops it.
Each hook finds its record with the fields as their own visits left them.
-/

namespace RuleCheck

namespace Walk

/-! ## The hooks that are due -/

/-- The declaration and the content of a field of a record, if the record has the field. -/
def fieldInside? (record : Value) (field : Field) : Option ( Annotation × Value) :=
  (record.fieldContent? field.name).map fun content => (field.declared, content)

/--
The values inside of a value that may have hooks, each with what is declared of it, in order: the fields of a
record that are not excluded, the items of a sequence, the values of a mapping, or the content of a box.
-/
def inside (walk : Walk) (declared : Annotation) (value : Value) : List ( Annotation × Value) :=
  if value.isNull then []
  else
    let resolved := value.resolvePresent declared
    match resolved.category with
    | .record =>
      match walk.view? value.classOf with
      | some view => (Visit.included walk.tokenize view.fields).filterMap (fieldInside? value)
      | none => []
    | .list => value.children.mapIdx fun i item => (resolved.item i, item)
    | .map | .reference => value.children.map fun child => (resolved.element, child)
    | _ => []

/-- The hooks of a value itself, if it is taken as a record. -/
def ownHooks (walk : Walk) (declared : Annotation) (value : Value) : List HookRun :=
  if value.isNull then []
  else
    match (value.resolvePresent declared).category, walk.view? value.classOf with
    | .record, some view =>
      Visit.hookRun view.typeName none view.selfHook value ++
        Visit.hookRun view.typeName (some walk.context) view.contextHook value
    | _, _ => []

theorem mem_children_of_inside {walk : Walk} {declared : Annotation} {value : Value}
    {inner : Annotation × Value} (h : inner ∈ walk.inside declared value) : inner.2 ∈ value.children := by
  unfold inside at h
  split at h
  · cases h
  · dsimp only at h
    split at h
    · split at h
      · obtain ⟨field, -, hfield⟩ := List.mem_filterMap.1 h
        obtain ⟨content, hcontent, rfl⟩ := Option.map_eq_some_iff.1 hfield
        exact Value.mem_children_of_field hcontent
      · cases h
    · obtain ⟨i, hi, rfl⟩ := List.mem_mapIdx.1 h
      exact List.getElem_mem hi
    · obtain ⟨child, hchild, rfl⟩ := List.mem_map.1 h
      exact hchild
    · obtain ⟨child, hchild, rfl⟩ := List.mem_map.1 h
      exact hchild
    · cases h

/-- The hooks that are due for a value, each with its record: those for what is inside, then its own. -/
def hooksDue (walk : Walk) (declared : Annotation) (value : Value) : List HookRun :=
  ((walk.inside declared value).attach.flatMap fun inner => hooksDue walk inner.1.1 inner.1.2) ++
    walk.ownHooks declared value
termination_by value.depth
decreasing_by exact Value.depth_lt_of_child (mem_children_of_inside inner.2)

theorem hooksDue_eq (walk : Walk) (declared : Annotation) (value : Value) :
    walk.hooksDue declared value =
      ((walk.inside declared value).flatMap fun inner => walk.hooksDue inner.1 inner.2) ++
        walk.ownHooks declared value := by
  rw [hooksDue, List.flatMap_subtype (g := fun inner => walk.hooksDue inner.1 inner.2) fun _ _ => rfl,
    List.unattach_attach]

end Walk

/-! ## Runs in the order that is due -/

/--
Whether hooks ran in the order in which they are due, the first ones of them, each so that it suits the one
that is due; and all of them if something passed.
-/
def InOrder (suits : HookRun → HookRun → Prop) (due ran : List HookRun) (passed : Prop) : Prop :=
  ∃ met, met <+: due ∧ List.Forall₂ suits met ran ∧ (passed → met = due)

namespace InOrder

variable {suits : HookRun → HookRun → Prop} {due ran due' : List HookRun} {passed : Prop}

theorem nil (passed : Prop) : InOrder suits [] [] passed :=
  ⟨[], List.prefix_refl [], .nil, fun _ => rfl⟩

theorem none_ran (hstopped : ¬ passed) (due : List HookRun) : InOrder suits due [] passed :=
  ⟨[], List.nil_prefix, .nil, fun hpass => absurd hpass hstopped⟩

theorem mono {whole : Prop} (h : InOrder suits due ran passed) (himp : whole → passed) :
    InOrder suits due ran whole :=
  h.imp fun _ hmet => ⟨hmet.1, hmet.2.1, fun hwhole => hmet.2.2 (himp hwhole)⟩

theorem all (h : List.Forall₂ suits due ran) (passed : Prop) : InOrder suits due ran passed :=
  ⟨due, List.prefix_refl due, h, fun _ => rfl⟩

/-- What comes after a visit runs its hooks after those of the visit, if the visit passes. -/
theorem andThen {visit : Visit} {next : Value → List HookRun} (h : InOrder suits due ran (visit.stop = none))
    (hnext : visit.stop = none → InOrder suits due' (next visit.value) passed)
    (hpassed : passed → visit.stop = none) :
    InOrder suits (due ++ due') (ran ++ visit.onward next) passed := by
  obtain ⟨met, hmet, hran, hall⟩ := h
  cases hstop : visit.stop with
  | some stop =>
      rw [Visit.onward_of_stopped hstop, List.append_nil]
      refine ⟨met, hmet.trans (List.prefix_append due due'), hran, fun hpass => ?_⟩
      rw [hpassed hpass] at hstop
      cases hstop
  | none =>
      obtain ⟨met', hmet', hran', hall'⟩ := hnext hstop
      rw [Visit.onward_of_passed hstop, ← hall hstop]
      refine ⟨met ++ met', List.prefix_append_right_inj met |>.2 hmet', List.rel_append hran hran',
        fun hpass => ?_⟩
      rw [hall' hpass]

end InOrder

namespace Walk

variable {walk : Walk} {levels : Nat}

/-- The record that a hook finds: every field that is not excluded was left by its own visit. -/
structure Prepared (walk : Walk) (old new : Value) : Prop where
  classOf_eq : new.classOf = old.classOf
  visited : ∃ view, walk.view? old.classOf = some view ∧
    (∀ field ∈ Visit.included walk.tokenize view.fields, ∃ levels writable content,
      old.fieldContent? field.name = some content ∧
        (walk.visit levels writable field.declared content (walk.tokenize field.rules)).stop = none ∧
        new.fieldContent? field.name =
          some (walk.visit levels writable field.declared content (walk.tokenize field.rules)).value) ∧
    ∀ name, (∀ field ∈ Visit.included walk.tokenize view.fields, field.name ≠ name) →
      new.fieldContent? name = old.fieldContent? name

/-- Whether a run of a hook is the one that is due, with its record prepared. -/
def Suits (walk : Walk) (due ran : HookRun) : Prop :=
  ran.call = due.call ∧ walk.Prepared due.record ran.record

def Orderly (walk : Walk) (levels : Nat) (place : Place) : Prop :=
  InOrder walk.Suits (walk.hooksDue place.declared place.value) (walk.hookRuns levels place)
    ((walk.visitAt levels place).stop = none)

theorem flatMap_onward {α β : Type} (f : α → List β) (visit : Visit) (next : Value → List α) :
    (visit.onward next).flatMap f = visit.onward fun value => (next value).flatMap f := by
  unfold Visit.onward
  split <;> rfl

theorem inOrder_reached {places : List Place} (h : ∀ next ∈ places, walk.Orderly levels next) {passed : Prop}
    (hpassed : passed → ∀ next ∈ places, (walk.visitAt levels next).stop = none) :
    InOrder walk.Suits (places.flatMap fun next => walk.hooksDue next.declared next.value)
      ((reached (walk.visitAt levels) places).flatMap (walk.hookRuns levels)) passed := by
  induction places with
  | nil => exact .nil _
  | cons first places ih =>
      simp only [List.flatMap_cons, reached, flatMap_onward]
      refine (h first List.mem_cons_self).andThen (fun _ => ?_) fun hpass =>
        hpassed hpass first List.mem_cons_self
      exact ih (fun next hnext => h next (List.mem_cons_of_mem first hnext)) fun hpass next hnext =>
        hpassed hpass next (List.mem_cons_of_mem first hnext)

/-! ## Records -/

section

variable {fields : List Field} {typeName : String} {writable : Bool}

/-- A visit to a field runs the hooks due for its content, and then come those of the steps after it. -/
theorem inOrder_cons {field : Field} {rules : RuleSet} {plan : List RecordStep} {record : Value}
    {due : List HookRun}
    (hown : ∀ content, record.fieldContent? field.name = some content →
      walk.Orderly levels ⟨record.isMutable || writable, field.declared, content, rules⟩)
    (hrest : ∀ new, InOrder walk.Suits due
      ((walk.stepPlaces levels typeName writable plan (record.withField field.name new)).flatMap
        (walk.hookRuns levels))
      ((Visit.steps (walk.visit levels) walk.tagKey typeName writable plan
        (record.withField field.name new)).stop = none)) :
    InOrder walk.Suits
      (((fieldInside? record field).toList.flatMap fun inner => walk.hooksDue inner.1 inner.2) ++ due)
      ((walk.stepPlaces levels typeName writable (.descend field rules :: plan) record).flatMap
        (walk.hookRuns levels))
      ((Visit.steps (walk.visit levels) walk.tagKey typeName writable (.descend field rules :: plan)
        record).stop = none) := by
  simp only [stepPlaces, Visit.steps, List.flatMap_append, flatMap_onward]
  cases hcontent : record.fieldContent? field.name with
  | none =>
      have hstop : (Visit.step (walk.visit levels) walk.tagKey typeName writable record
          (.descend field rules)).stop = some (.fault (.noAttribute record.classOf.fullName field.name)) := by
        simp [Visit.step, Visit.field, hcontent, Visit.abort, Visit.halt]
      simp only [RecordStep.place?, hcontent, Visit.onward_of_stopped hstop]
      exact .none_ran (by simp [Visit.andThen, hstop]) _
  | some content =>
      have hstep : Visit.step (walk.visit levels) walk.tagKey typeName writable record
          (.descend field rules) = _ := step_of_content hcontent rules
      simp only [RecordStep.place?, fieldInside?, hcontent, Option.map_some, Option.toList_some,
        List.flatMap_cons, List.flatMap_nil, List.append_nil]
      refine ((hown content hcontent).mono ?_).andThen (fun _ => ?_) fun hpass =>
        (Visit.andThen_passed hpass).1
      · rw [hstep]
        exact Option.map_eq_none_iff.1
      · rw [hstep]
        exact (hrest _).mono fun hpass => (Visit.andThen_passed hpass).2.1

/-- The fields of a record that are not excluded are visited in order, each as it was at first. -/
theorem inOrder_steps (hdistinct : (fields.map Field.name).Nodup)
    (hmain : ∀ field ∈ fields, (walk.tokenize field.rules).has RuleSet.mainToken = false) {rules : RuleSet}
    {record : Value}
    (h : ∀ field ∈ fields, ∀ content, record.fieldContent? field.name = some content →
      walk.Orderly levels ⟨record.isMutable || writable, field.declared, content,
        walk.tokenize field.rules⟩) :
    InOrder walk.Suits
      (((Visit.included walk.tokenize fields).filterMap (fieldInside? record)).flatMap fun inner =>
        walk.hooksDue inner.1 inner.2)
      ((walk.stepPlaces levels typeName writable
        (fields.flatMap (RecordStep.ofField walk.tokenize rules)) record).flatMap (walk.hookRuns levels))
      ((Visit.steps (walk.visit levels) walk.tagKey typeName writable
        (fields.flatMap (RecordStep.ofField walk.tokenize rules)) record).stop = none) := by
  induction fields generalizing record with
  | nil => exact .nil _
  | cons first rest ih =>
      obtain ⟨hfirst, hrest⟩ := List.nodup_cons.1 hdistinct
      obtain ⟨hown, hothers⟩ := List.forall_mem_cons.1 h
      obtain ⟨hmainFirst, hmainRest⟩ := List.forall_mem_cons.1 hmain
      cases hexcluded : (walk.tokenize first.rules).excluded with
      | true =>
          have hplan : RecordStep.ofField walk.tokenize rules first = [.readRules first.rules] := by
            simp [RecordStep.ofField, hexcluded]
          have hfields : Visit.included walk.tokenize (first :: rest) = Visit.included walk.tokenize rest := by
            simp [Visit.included, hexcluded]
          rw [List.flatMap_cons, hplan, hfields]
          exact ih hrest hmainRest hothers
      | false =>
          have hplan : RecordStep.ofField walk.tokenize rules first =
              [.readRules first.rules, .descend first (walk.tokenize first.rules)] := by
            simp [RecordStep.ofField, hexcluded, hmainFirst]
          have hdue : ((Visit.included walk.tokenize (first :: rest)).filterMap (fieldInside? record)) =
              (fieldInside? record first).toList ++
                (Visit.included walk.tokenize rest).filterMap (fieldInside? record) := by
            cases hinside : fieldInside? record first <;> simp [Visit.included, hexcluded, hinside]
          -- the other fields are what they were before this one was visited
          have hsame (field : Field) (hfield : field ∈ rest) (new : Value) :
              (record.withField first.name new).fieldContent? field.name =
                record.fieldContent? field.name :=
            Value.fieldContent?_withField_of_ne _ _ fun hname =>
              hfirst (List.mem_map.2 ⟨field, hfield, hname⟩)
          have hafter (new : Value) : (Visit.included walk.tokenize rest).filterMap
              (fieldInside? (record.withField first.name new)) =
                (Visit.included walk.tokenize rest).filterMap (fieldInside? record) :=
            List.filterMap_congr fun field hfield => by
              simp only [fieldInside?, hsame field (List.mem_filter.1 hfield).1]
          rw [List.flatMap_cons, hplan, hdue, List.flatMap_append]
          refine inOrder_cons hown fun new => ?_
          rw [← hafter new]
          refine ih hrest hmainRest fun field hfield content hcontent => ?_
          rw [hsame field hfield] at hcontent
          rw [Value.isMutable_withField]
          exact hothers field hfield content hcontent

theorem prepared_of_steps {view : RecordView} {record : Value}
    (hview : walk.view? record.classOf = some view) (hdistinct : (view.fields.map Field.name).Nodup)
    (hmain : ∀ field ∈ view.fields, (walk.tokenize field.rules).has RuleSet.mainToken = false)
    {rules : RuleSet}
    (hpass : (Visit.steps (walk.visit levels) walk.tagKey typeName writable
      (view.fields.flatMap (RecordStep.ofField walk.tokenize rules)) record).stop = none) :
    walk.Prepared record (Visit.steps (walk.visit levels) walk.tagKey typeName writable
      (view.fields.flatMap (RecordStep.ofField walk.tokenize rules)) record).value where
  classOf_eq := Visit.classOf_of_steps hpass
  visited := by
    refine ⟨view, hview, fun field hfield => ?_, (Visit.inTurn_steps hdistinct hmain record).others⟩
    obtain ⟨hmem, hincluded⟩ := List.mem_filter.1 hfield
    obtain ⟨before, after, hsplit⟩ := List.append_of_mem hmem
    rw [hsplit] at hdistinct hpass ⊢
    obtain ⟨content, hcontent, -, -, hown, hleft⟩ :=
      Visit.field_of_steps hdistinct (by simpa using hincluded) (hmain field hmem) hpass
    exact ⟨levels, _, content, hcontent, hown, hleft⟩

theorem inOrder_hooks (hassign : walk.AssignsNothing) {view : RecordView} {old new : Value}
    (hview : walk.view? old.classOf = some view) (h : walk.Prepared old new) :
    InOrder walk.Suits
      (Visit.hookRun view.typeName none view.selfHook old ++
        Visit.hookRun view.typeName (some walk.context) view.contextHook old)
      (Visit.hookRuns view walk.context new) ((Visit.hooks view walk.context new).stop = none) := by
  have hrun (called : Option Value) (method : Option Hook) :
      List.Forall₂ walk.Suits (Visit.hookRun view.typeName called method old)
        (Visit.hookRun view.typeName called method new) := by
    unfold Visit.hookRun
    cases method.filter Hook.isMethod with
    | none => exact .nil
    | some method => exact .cons ⟨rfl, h⟩ .nil
  have hself := (hook_value_of_assignsNothing view.typeName none walk.context new
    (selfHook_assignsNothing hassign hview)).1
  refine (InOrder.all (hrun none view.selfHook) _).andThen (fun _ => ?_) fun hpass =>
    (Visit.andThen_passed hpass).1
  rw [hself]
  exact .all (hrun (some walk.context) view.contextHook) _

end

/-! ## The walk as a whole -/

section

variable {place : Place}

theorem hooksDue_of_isNull {value : Value} (hnull : value.isNull = true) (declared : Annotation) :
    walk.hooksDue declared value = [] := by
  rw [hooksDue_eq, inside, ownHooks, if_pos hnull, if_pos hnull]
  rfl

theorem hooksDue_of_optional {value : Value} {declared : Annotation} (hnull : value.isNull = false)
    (hcategory : (value.resolve declared).category = .optional) :
    walk.hooksDue declared value = walk.hooksDue (value.resolve declared).element value := by
  have hresolved : value.resolvePresent declared =
      value.resolvePresent (value.resolve declared).element := by
    rw [Value.resolvePresent, dif_pos ⟨hnull, hcategory⟩]
  rw [hooksDue_eq, hooksDue_eq]
  simp only [inside, ownHooks, hresolved]

theorem hooksDue_of_record {value : Value} {declared : Annotation} {view : RecordView}
    (hnull : value.isNull = false) (hcategory : (value.resolve declared).category = .record)
    (hview : walk.view? value.classOf = some view) :
    walk.hooksDue declared value =
      (((Visit.included walk.tokenize view.fields).filterMap (fieldInside? value)).flatMap fun inner =>
        walk.hooksDue inner.1 inner.2) ++
      (Visit.hookRun view.typeName none view.selfHook value ++
        Visit.hookRun view.typeName (some walk.context) view.contextHook value) := by
  have hpresent : value.resolvePresent declared = value.resolve declared :=
    Value.resolvePresent_of_ne (by simp [hcategory])
  rw [hooksDue_eq]
  simp only [inside, ownHooks, hnull, Bool.false_eq_true, if_false, hpresent, hcategory, hview]

theorem hooksDue_of_ne {value : Value} {declared : Annotation} (hnull : value.isNull = false)
    (hoptional : (value.resolve declared).category ≠ .optional)
    (hrecord : (value.resolve declared).category ≠ .record) :
    walk.hooksDue declared value =
      match (value.resolve declared).category with
      | .list => value.children.zipIdx.flatMap fun item =>
          walk.hooksDue ((value.resolve declared).item item.2) item.1
      | .map | .reference => value.children.flatMap (walk.hooksDue (value.resolve declared).element)
      | _ => [] := by
  rw [hooksDue_eq, inside, ownHooks, Value.resolvePresent_of_ne hoptional]
  simp only [hnull, Bool.false_eq_true, if_false]
  split
  · contradiction
  all_goals simp_all [List.mapIdx_eq_zipIdx_map, List.flatMap_map]

theorem hooksDue_scalar (declared : Annotation) (origin : Origin) (content : Scalar) :
    walk.hooksDue declared (.scalar origin content) = [] := by
  have hnull : (Value.scalar origin content).isNull = false := rfl
  obtain ⟨inner, hinner, -⟩ := Value.category_resolvePresent hnull declared
  have hrecord : ((Value.scalar origin content).resolve inner).category ≠ .record := by
    intro hcategory
    rcases Value.record_of_resolve hnull hcategory with ⟨_, h⟩ | ⟨_, _, h⟩ <;> cases h
  rw [hooksDue_eq, inside, ownHooks, hinner]
  simp only [hnull, Bool.false_eq_true, if_false, Value.children]
  split
  · contradiction
  all_goals
    first | rfl | simp_all

/-- A missing value is in order: no hook is due for it, and none runs. -/
theorem orderly_of_isNull (hnull : place.value.isNull = true) : walk.Orderly (levels + 1) place := by
  have hvalue := Value.eq_null_of_isNull hnull
  have hplaces : walk.placesBelow levels place = [] := by
    simp only [placesBelow, Place.present, Place.content, Place.items, Place.entries, entered?, hvalue,
      Value.isNull, Bool.true_or, if_true]
    repeat' split
    all_goals first | rfl | contradiction
  have hown : walk.ownRuns levels place = [] := by
    simp only [ownRuns, entered?, hnull, Bool.true_or, if_true]
    split <;> rfl
  unfold Orderly
  rw [hooksDue_of_isNull hnull, hookRuns, hplaces, hown]
  exact .nil _

theorem orderly_of_served {evaluator : Evaluator}
    (hserved : walk.evaluator? place.resolved.category = some evaluator)
    (h : InOrder walk.Suits (walk.hooksDue place.declared place.value)
      ((walk.placesBelow levels place).flatMap (walk.hookRuns levels) ++ walk.ownRuns levels place)
      ((walk.evaluate (walk.visit levels) evaluator place.writable place.resolved place.value
        place.rules).stop = none)) : walk.Orderly (levels + 1) place := by
  unfold Orderly
  rw [visitAt_of_served hserved]
  exact h

variable (hregistry : walk.evaluator? = Registry.standard.get?) (hnull : place.value.isNull = false)

include hregistry hnull

theorem orderly_optional (hcategory : place.resolved.category = .optional)
    (h : walk.Orderly levels { place with declared := place.resolved.element }) :
    walk.Orderly (levels + 1) place := by
  have hserved : walk.evaluator? place.resolved.category = some .optional := by
    rw [hregistry, hcategory]
    rfl
  apply orderly_of_served hserved
  rw [hooksDue_of_optional hnull hcategory]
  simp only [placesBelow, ownRuns, hserved, Place.present, hnull, evaluate, Visit.optional,
    Bool.false_eq_true, if_false, List.flatMap_cons, List.flatMap_nil, List.append_nil]
  exact h

theorem orderly_reference (hcategory : place.resolved.category = .reference)
    (h : ∀ content, place.value = .box content →
      walk.Orderly levels ⟨true, place.resolved.element, content, place.rules⟩) :
    walk.Orderly (levels + 1) place := by
  have hserved : walk.evaluator? place.resolved.category = some .reference := by
    rw [hregistry, hcategory]
    rfl
  obtain ⟨content, hvalue⟩ := Value.box_of_resolve hnull hcategory
  have hdue : walk.hooksDue place.declared place.value =
      walk.hooksDue place.resolved.element content := by
    have hown : (place.value.resolve place.declared).category = .reference := hcategory
    rw [hooksDue_of_ne hnull (by simp [hown]) (by simp [hown]), hown, hvalue]
    simp only [Value.children, List.flatMap_cons, List.flatMap_nil, List.append_nil, Place.resolved, hvalue]
  apply orderly_of_served hserved
  rw [hdue]
  simp only [placesBelow, ownRuns, hserved, evaluate, List.append_nil]
  cases hcontent : content.isNull with
  | true =>
      obtain rfl := Value.eq_null_of_isNull hcontent
      rw [hooksDue_of_isNull hcontent, Place.content, hvalue]
      exact .nil _
  | false =>
      rw [Place.content_of_box hvalue hcontent, hvalue, Visit.reference_present hcontent]
      simp only [List.flatMap_cons, List.flatMap_nil, List.append_nil]
      exact h content hvalue

omit hregistry in
theorem hooksDue_of_items (hcategory : place.resolved.category = .list) {remaining : RuleSet}
    {items : List Value} (henters : place.EntersItems remaining items) :
    walk.hooksDue place.declared place.value =
      place.items.flatMap fun next => walk.hooksDue next.declared next.value := by
  have hown : (place.value.resolve place.declared).category = .list := hcategory
  rw [hooksDue_of_ne hnull (by simp [hown]) (by simp [hown]), hown]
  rw [henters.items_eq]
  simp only [List.mapIdx_eq_zipIdx_map, List.flatMap_map]
  rcases Value.items_of_resolve hnull hown henters.items? with rfl | ⟨⟨start, stop, step, hvalue⟩, hints⟩
  · rfl
  · have hchildren : place.value.children = [] := by
      rw [hvalue]
      rfl
    rw [hchildren]
    symm
    rw [List.zipIdx_nil, List.flatMap_nil, List.flatMap_eq_nil_iff]
    rintro ⟨item, i⟩ hitem
    obtain ⟨n, rfl⟩ := hints item (List.fst_mem_of_mem_zipIdx hitem)
    exact hooksDue_scalar _ _ _

theorem orderly_list (hcategory : place.resolved.category = .list)
    (h : ∀ next ∈ place.items, walk.Orderly levels next) : walk.Orderly (levels + 1) place := by
  have hserved : walk.evaluator? place.resolved.category = some .sequence := by
    rw [hregistry, hcategory]
    rfl
  apply orderly_of_served hserved
  simp only [placesBelow, ownRuns, hserved, List.append_nil, evaluate]
  rcases place.entersItems_or_idle with ⟨remaining, items, henters⟩ | ⟨hnone, stop, hstop, hidle⟩
  · rw [hooksDue_of_items hnull hcategory henters]
    refine inOrder_reached h fun hpass next hnext => ?_
    simp only [henters.sequence_eq, Visit.ofItems_stop, Visits.ofItems_passes_iff, Nat.zero_add] at hpass
    rw [henters.items_eq] at hnext
    obtain ⟨i, hi, rfl⟩ := List.mem_mapIdx.1 hnext
    exact hpass i items[i] (List.getElem?_eq_getElem hi)
  · rw [hnone, hidle]
    exact .none_ran (hstop hnull) _

theorem orderly_mapping (hcategory : place.resolved.category = .map)
    (h : ∀ next ∈ place.entries, walk.Orderly levels next) : walk.Orderly (levels + 1) place := by
  have hserved : walk.evaluator? place.resolved.category = some .mapping := by
    rw [hregistry, hcategory]
    rfl
  apply orderly_of_served hserved
  simp only [placesBelow, ownRuns, hserved, List.append_nil, evaluate]
  rcases place.entersEntries_or_idle with
    ⟨remaining, kind, derived, entries, henters⟩ | ⟨hnone, stop, hstop, hidle⟩
  · have hown : (place.value.resolve place.declared).category = .map := hcategory
    have hdue : walk.hooksDue place.declared place.value =
        place.entries.flatMap fun next => walk.hooksDue next.declared next.value := by
      rw [hooksDue_of_ne hnull (by simp [hown]) (by simp [hown]), hown, henters.entries_eq]
      simp only [Place.resolved, henters.value_eq, Value.children, List.flatMap_map]
    rw [hdue]
    refine inOrder_reached h fun hpass next hnext => ?_
    simp only [henters.mapping_eq, Visits.ofEntries_passes_iff] at hpass
    rw [henters.entries_eq] at hnext
    obtain ⟨entry, hentry, rfl⟩ := List.mem_map.1 hnext
    exact hpass entry hentry
  · rw [hnone, hidle]
    exact .none_ran (hstop hnull) _

theorem orderly_record (hassign : walk.AssignsNothing) (hdistinct : walk.DistinctFields)
    (hcategory : place.resolved.category = .record) (hown : walk.OwnRulesOnly place.value)
    (htargets : place.rules.targets = [])
    (h : ∀ (field : Field) content, place.value.fieldContent? field.name = some content →
      (walk.tokenize field.rules).targets = [] →
      walk.Orderly levels ⟨place.value.isMutable || place.writable, field.declared, content,
        walk.tokenize field.rules⟩) : walk.Orderly (levels + 1) place := by
  have hserved : walk.evaluator? place.resolved.category = some .record := by
    rw [hregistry, hcategory]
    rfl
  have hvisit := @record_of_entered walk levels place
  apply orderly_of_served hserved
  simp only [placesBelow, ownRuns, hserved, evaluate]
  cases hentered : walk.entered? place with
  | none =>
      simp only [hentered] at hvisit
      exact .none_ran (hvisit.2 hnull) _
  | some view =>
      simp only [hentered] at hvisit
      obtain ⟨events, -, hvisit⟩ := hvisit
      have hview := view_of_entered hentered
      have hfields := hown place.value (.here _) view hview
      have hmain (field : Field) (hfield : field ∈ view.fields) := (hfields field hfield).1
      have hplan : RecordStep.all walk.tokenize view.fields place.rules =
          .readFields :: view.fields.flatMap (RecordStep.ofField walk.tokenize place.rules) := by
        simp [RecordStep.all, htargets]
      have hsteps := @inOrder_steps walk levels view.fields view.typeName place.writable
        (hdistinct _ view hview) hmain place.rules place.value fun field hfield content hcontent =>
          h field content hcontent (hfields field hfield).2
      have hprepared := @prepared_of_steps walk levels view.typeName place.writable view place.value hview
        (hdistinct _ view hview) hmain place.rules
      simp only [hvisit, Visit.after_stop, Visit.presentRecord, hplan]
      rw [hooksDue_of_record hnull hcategory hview]
      -- reading the fields changes nothing, so the steps are those of the fields
      refine InOrder.andThen hsteps (fun hpass => ?_) fun hpass => (Visit.andThen_passed hpass).1
      exact (inOrder_hooks hassign hview (hprepared hpass)).mono fun hpass =>
        (Visit.andThen_passed hpass).2.1

/-- Whatever has nothing inside runs no hooks, and none are due for it. -/
theorem orderly_leaf (hleaf : place.resolved.category ∉
      [Category.optional, .reference, .record, .list, .map]) : walk.Orderly (levels + 1) place := by
  have hown : (place.value.resolve place.declared).category ∉
      [Category.optional, .reference, .record, .list, .map] := hleaf
  have hdue : walk.hooksDue place.declared place.value = [] := by
    rw [hooksDue_of_ne hnull (fun h => hown (by simp [h])) fun h => hown (by simp [h])]
    split <;> simp_all
  have hruns : walk.hookRuns (levels + 1) place = [] := by
    simp only [hookRuns, placesBelow, ownRuns, hregistry]
    generalize place.resolved.category = category at hleaf
    cases category <;> first | rfl | simp at hleaf
  unfold Orderly
  rw [hdue, hruns]
  exact .nil _

omit hregistry hnull in
/-- The items of a sequence are inside of it, unless they are integers, and get none but its own tokens. -/
theorem mem_items {next : Place} (hcategory : place.resolved.category = .list) (h : next ∈ place.items) :
    (next.value ∈ place.value.children ∨ ∃ n, next.value = .ofInt n) ∧
      ∀ token ∈ next.rules.tokens, token ∈ place.rules.tokens := by
  obtain ⟨remaining, items, henters, i, item, hitem, rfl⟩ := Place.exists_of_mem_items h
  refine ⟨?_, RuleSet.checkLengthTokens_subset henters.checkLength⟩
  have hmem := List.mem_of_getElem? hitem
  rcases Value.items_of_resolve henters.isNull hcategory henters.items? with rfl | ⟨-, hints⟩
  · exact .inl hmem
  · exact .inr (hints item hmem)

omit hregistry hnull in
/-- The values of a mapping are inside of it, and get none but its own tokens. -/
theorem mem_entries {next : Place} (h : next ∈ place.entries) :
    next.value ∈ place.value.children ∧ ∀ token ∈ next.rules.tokens, token ∈ place.rules.tokens := by
  obtain ⟨remaining, kind, derived, entries, henters, entry, hentry, rfl⟩ := Place.exists_of_mem_entries h
  refine ⟨?_, RuleSet.checkLengthTokens_subset henters.checkLength⟩
  rw [henters.value_eq]
  exact List.mem_map_of_mem hentry

end

/-- From every place on, a walk runs the hooks that are due there, in order. -/
theorem orderly (hregistry : walk.evaluator? = Registry.standard.get?) (hassign : walk.AssignsNothing)
    (hdistinct : walk.DistinctFields)
    (hrecords : ∀ base view, walk.view? base = some view → base.isRecord = true) (levels : Nat)
    (place : Place) (hown : walk.OwnRulesOnly place.value) (htargets : place.rules.targets = []) :
    walk.Orderly levels place := by
  induction levels generalizing place with
  | zero => exact .none_ran (by simp [visitAt, visit, Visit.abort, Visit.halt]) _
  | succ levels ih =>
      cases hnull : place.value.isNull with
      | true => exact orderly_of_isNull hnull
      | false =>
          cases hcategory : place.resolved.category with
          | optional => exact orderly_optional hregistry hnull hcategory (ih _ hown htargets)
          | reference =>
              refine orderly_reference hregistry hnull hcategory fun content hvalue => ?_
              exact ih _ (hown.child (by simp [hvalue, Value.children])) htargets
          | record =>
              refine orderly_record hregistry hnull hassign hdistinct hcategory hown htargets
                fun field content hcontent hfield => ?_
              exact ih _ (hown.child (Value.mem_children_of_field hcontent)) hfield
          | list =>
              refine orderly_list hregistry hnull hcategory fun next hnext => ?_
              obtain ⟨hvalue, htokens⟩ := mem_items hcategory hnext
              refine ih next ?_ (RuleSet.targets_of_subset htokens htargets)
              rcases hvalue with hchild | ⟨n, hvalue⟩
              · exact hown.child hchild
              · exact hvalue ▸ ownRulesOnly_ofInt hrecords n
          | map =>
              refine orderly_mapping hregistry hnull hcategory fun next hnext => ?_
              obtain ⟨hchild, htokens⟩ := mem_entries hnext
              exact ih next (hown.child hchild) (RuleSet.targets_of_subset htokens htargets)
          | _ => exact orderly_leaf hregistry hnull (by simp [hcategory])

end Walk

end RuleCheck
