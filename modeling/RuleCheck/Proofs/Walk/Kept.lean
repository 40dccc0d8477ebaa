import RuleCheck.Proofs.Category.Stable
import RuleCheck.Proofs.Visit.Passing
import RuleCheck.Proofs.Visit.Settling
import RuleCheck.Walk

/-! # What walks keep

A relation between the values of a place before and after a visit holds for all visits that pass, if it
holds for each way in which a visit can change a value and for one change after another.  The relation
may depend on what is declared of the place and on whether the place was written.
-/

namespace RuleCheck

theorem Registry.category_of_standard {category : Category} {evaluator : Evaluator}
    (h : standard.get? category = some evaluator) : evaluator.category = category := by
  cases category <;> cases h <;> rfl

namespace Walk

/-- Every evaluator in use serves the category that it is made for. -/
def Matched (walk : Walk) : Prop :=
  ∀ category evaluator, walk.evaluator? category = some evaluator → evaluator.category = category

theorem matched_of_standard {walk : Walk} (hregistry : walk.evaluator? = Registry.standard.get?) :
    walk.Matched := by
  intro category evaluator hevaluator
  rw [hregistry] at hevaluator
  exact Registry.category_of_standard hevaluator

/-- A relation that holds for every change that a visit can make. -/
structure Kept (walk : Walk) (R : Bool → Annotation → Value → Value → Prop) : Prop where
  refl (declared : Annotation) (value : Value) : R false declared value value
  trans {replaced later : Bool} {declared : Annotation} {old value new : Value} :
    R replaced declared old value → R later declared value new →
      R (replaced || later) declared old new
  /-- A plain scalar is written in the place of a value that settles to it. -/
  scalar {kind : ScalarKind} {declared : Annotation} {value : Value} {content : Scalar}
    (hcategory : (value.resolve declared).category = kind.category)
    (hbase : content.base = kind.base) (hne : .ofScalar content ≠ value)
    (hsettle : ∃ rules, kind.settle rules value = .ok ⟨.ofScalar content, true⟩) :
    R true declared value (.ofScalar content)
  /-- A value that need not be there is visited with the annotation of those that are. -/
  present {replaced : Bool} {declared : Annotation} {value new : Value}
    (hcategory : (value.resolve declared).category = .optional) (hnull : value.isNull = false)
    (h : R replaced (value.resolve declared).element value new) : R replaced declared value new
  content {replaced : Bool} {declared : Annotation} {value new : Value}
    (hcategory : ((Value.box value).resolve declared).category = .reference)
    (h : R replaced ((Value.box value).resolve declared).element value new) :
    R false declared (.box value) (.box new)
  items {replaced : Bool} {declared : Annotation} {value : Value} {items news : List Value}
    (hcategory : (value.resolve declared).category = .list) (hitems : value.items? = some items)
    (hwritable : replaced = true → value.itemsWritable true = true)
    (h : Visits.Each (fun own index => R own ((value.resolve declared).item index)) replaced 0
      items news) :
    R (replaced && value.isRebuilt) declared value (value.rebuild replaced news)
  entries {replaced : Bool} {declared : Annotation} {kind : MappingKind} {derived : Option String}
    {entries : List (Value × Value)} {news : List Value}
    (hcategory : ((Value.mapping kind derived entries).resolve declared).category = .map)
    (hwritable : replaced = true → kind.isMutable = true)
    (h : Visits.Each
      (fun own _ => R own ((Value.mapping kind derived entries).resolve declared).element) replaced 0
      (entries.map Prod.snd) news) :
    R false declared (.mapping kind derived entries)
      ((Value.mapping kind derived entries).withEntries news)
  field {replaced : Bool} {declared : Annotation} {value content new : Value} {view : RecordView}
    {field : Field} (hcategory : (value.resolve declared).category = .record)
    (hview : walk.view? value.classOf = some view) (hfield : field ∈ view.fields)
    (hcontent : value.fieldContent? field.name = some content)
    (h : R replaced field.declared content new) :
    R (!value.isMutable && replaced) declared value (value.withField field.name new)
  /-- A hook assigns a field. -/
  assign {declared : Annotation} {value new assigned : Value} {view : RecordView} {hook : Hook} {name : String}
    (hcategory : (value.resolve declared).category = .record)
    (hview : walk.view? value.classOf = some view) (hhook : hook ∈ view.hooks)
    (hassigns : ¬hook.AssignsNothing) (h : value.assignField name new = .ok assigned) :
    R false declared value assigned

/-- A visit that passed was written only where it may be, and left what the relation allows. -/
def Keeps (R : Bool → Annotation → Value → Value → Prop) (writable : Bool) (declared : Annotation)
    (value : Value) (visit : Visit) : Prop :=
  visit.stop = none →
    (visit.replaced = true → writable = true) ∧ R visit.replaced declared value visit.value

section

variable {walk : Walk} {R : Bool → Annotation → Value → Value → Prop}
  {descend : Bool → Annotation → Value → RuleSet → Visit}

theorem Kept.scalar_keeps (hR : walk.Kept R) {kind : ScalarKind} {declared : Annotation}
    {value : Value} (hcategory : (value.resolve declared).category = kind.category)
    (writable : Bool) (rules : RuleSet) :
    Keeps R writable declared value (kind.visit writable value rules) := by
  intro hpass
  obtain ⟨settled, hsettle, -, ⟨-, hvalue, hreplaced⟩ | ⟨hchanged, hwritable, hvalue, hreplaced⟩⟩ :=
    ScalarKind.visit_passed hpass
  · rw [hvalue, hreplaced]
    exact ⟨by simp, hR.refl declared value⟩
  · obtain ⟨folded, default, h⟩ := ScalarKind.settle_eq_ok hsettle
    obtain ⟨content, hcontent, hbase, hne⟩ := h.written hchanged
    have hwritten : kind.settle rules value = .ok ⟨.ofScalar content, true⟩ := by
      rw [hsettle, ← hcontent, ← hchanged]
    rw [hvalue, hreplaced, hcontent]
    rw [hcontent] at hne
    exact ⟨fun _ => hwritable, hR.scalar hcategory hbase hne ⟨rules, hwritten⟩⟩

theorem Kept.missing_keeps (hR : walk.Kept R) {value : Value} (hnull : value.isNull = true)
    (declared : Annotation) (writable : Bool) (stop : Option Stop) :
    Keeps R writable declared value (.missing stop) := by
  intro _
  cases value <;> cases hnull
  exact ⟨by simp [Visit.missing], hR.refl declared .null⟩

theorem Kept.optional_keeps (hR : walk.Kept R)
    (hdescend : ∀ writable declared value rules,
      Keeps R writable declared value (descend writable declared value rules))
    {declared : Annotation} {value : Value}
    (hcategory : (value.resolve declared).category = .optional) (writable : Bool) (rules : RuleSet) :
    Keeps R writable declared value
      (.optional descend writable (value.resolve declared) value rules) := by
  unfold Visit.optional
  split
  · rename_i hnull
    exact hR.missing_keeps hnull declared writable _
  · rename_i hnull
    intro hpass
    obtain ⟨hwritable, h⟩ := hdescend _ _ _ _ hpass
    exact ⟨hwritable, hR.present hcategory (by simpa using hnull) h⟩

theorem Kept.reference_keeps (hR : walk.Kept R)
    (hdescend : ∀ writable declared value rules,
      Keeps R writable declared value (descend writable declared value rules))
    {declared : Annotation} {value : Value}
    (hcategory : (value.resolve declared).category = .reference) (writable : Bool)
    (rules : RuleSet) :
    Keeps R writable declared value (.reference descend (value.resolve declared) value rules) := by
  intro hpass
  unfold Visit.reference at hpass ⊢
  split at hpass
  · split at hpass
    · simp [Visit.refuse, Visit.halt] at hpass
    · rename_i hrequired
      simp only [hrequired, Bool.false_eq_true, if_false]
      exact ⟨by simp [Visit.pass], hR.refl declared (.box .null)⟩
  · rename_i content hcontent
    obtain ⟨-, h⟩ := hdescend _ _ _ _ hpass
    exact ⟨by simp, hR.content hcategory h⟩
  · simp [Visit.abort, Visit.halt] at hpass

theorem itemsWritable_mono {value : Value} {writable : Bool}
    (h : value.itemsWritable writable = true) : value.itemsWritable true = true := by
  unfold Value.itemsWritable at h ⊢
  split at h <;> simp_all

theorem writable_of_isRebuilt {value : Value} {writable : Bool}
    (h : value.itemsWritable writable = true) (hrebuilt : value.isRebuilt = true) :
    writable = true := by
  unfold Value.itemsWritable at h
  unfold Value.isRebuilt at hrebuilt
  split at h <;> simp_all

/-- Where one of several values was written, the places of all of them can be written. -/
theorem writable_of_each {S : Nat → Value → Value → Prop} {writable : Bool} {replaced : Bool}
    {index : Nat} {values news : List Value}
    (h : Visits.Each (fun own index value new => (own = true → writable = true) ∧ S index value new)
      replaced index values news) : replaced = true → writable = true := by
  induction h with
  | nil => simp
  | cons head _ ih =>
      intro hreplaced
      rcases Bool.or_eq_true_iff.1 hreplaced with hown | hlater
      · exact head.1 hown
      · exact ih hlater

theorem Kept.sequence_keeps (hR : walk.Kept R)
    (hdescend : ∀ writable declared value rules,
      Keeps R writable declared value (descend writable declared value rules))
    {declared : Annotation} {value : Value}
    (hcategory : (value.resolve declared).category = .list) (writable : Bool) (rules : RuleSet) :
    Keeps R writable declared value
      (.sequence descend writable (value.resolve declared) value rules) := by
  cases hnull : value.isNull with
  | true =>
      unfold Visit.sequence
      simp only [hnull, if_true]
      exact hR.missing_keeps hnull declared writable _
  | false =>
      intro hpass
      obtain ⟨remaining, items, -, -, hitems, hvisit⟩ := Visit.sequence_passed hnull hpass
      rw [hvisit, Visit.ofItems_stop] at hpass
      have heach := Visits.ofItems_passed hpass
      rw [hvisit, Visit.ofItems_value, Visit.ofItems_replaced]
      have hwritable : _ = true → value.itemsWritable writable = true :=
        writable_of_each (S := fun _ _ _ => True) <| heach.mono fun own index item new _ h => by
          obtain ⟨hstop, rfl, rfl⟩ := h
          exact ⟨(hdescend _ _ _ _ hstop).1, trivial⟩
      refine ⟨?_, hR.items hcategory hitems (fun h => itemsWritable_mono (hwritable h)) ?_⟩
      · intro hreplaced
        obtain ⟨hreplaced, hrebuilt⟩ := Bool.and_eq_true_iff.1 hreplaced
        exact writable_of_isRebuilt (hwritable hreplaced) hrebuilt
      · refine heach.mono fun own index item new _ h => ?_
        obtain ⟨hstop, rfl, rfl⟩ := h
        exact (hdescend _ _ _ _ hstop).2

theorem Kept.mapping_keeps (hR : walk.Kept R)
    (hdescend : ∀ writable declared value rules,
      Keeps R writable declared value (descend writable declared value rules))
    {declared : Annotation} {value : Value}
    (hcategory : (value.resolve declared).category = .map) (writable : Bool) (rules : RuleSet) :
    Keeps R writable declared value (.mapping descend (value.resolve declared) value rules) := by
  cases hnull : value.isNull with
  | true =>
      unfold Visit.mapping
      simp only [hnull, if_true]
      exact hR.missing_keeps hnull declared writable _
  | false =>
      intro hpass
      obtain ⟨remaining, kind, derived, entries, -, rfl, hvisit⟩ :=
        Visit.mapping_passed hnull hpass
      rw [hvisit] at hpass ⊢
      have heach := Visits.ofEntries_passed 0 hpass
      have hwritable : _ = true → kind.isMutable = true :=
        writable_of_each (S := fun _ _ _ => True) <| heach.mono fun own index item new _ h => by
          obtain ⟨hstop, rfl, rfl⟩ := h
          exact ⟨(hdescend _ _ _ _ hstop).1, trivial⟩
      refine ⟨by simp, hR.entries hcategory hwritable ?_⟩
      refine heach.mono fun own index item new _ h => ?_
      obtain ⟨hstop, rfl, rfl⟩ := h
      exact (hdescend _ _ _ _ hstop).2

/-- A record on its way through a visit is still of the same type and category. -/
structure OnTheWay (R : Bool → Annotation → Value → Value → Prop) (writable : Bool)
    (declared : Annotation) (old : Value) (replaced : Bool) (value : Value) : Prop where
  kept : R replaced declared old value
  classOf : value.classOf = old.classOf
  resolve : value.resolve declared = old.resolve declared
  writable_of_replaced : replaced = true → writable = true

theorem Kept.steps_onTheWay (hR : walk.Kept R)
    (hdescend : ∀ writable declared value rules,
      Keeps R writable declared value (descend writable declared value rules))
    {declared : Annotation} {old record : Value} {view : RecordView} {writable replaced : Bool}
    {plan : List RecordStep} (hcategory : (old.resolve declared).category = .record)
    (hview : walk.view? old.classOf = some view)
    (hplan : ∀ field rules, .descend field rules ∈ plan → field ∈ view.fields)
    (hstart : OnTheWay R writable declared old replaced record)
    (hpass : (Visit.steps descend walk.tagKey view.typeName writable plan record).stop = none) :
    OnTheWay R writable declared old
      (replaced ||
        (Visit.steps descend walk.tagKey view.typeName writable plan record).replaced)
      (Visit.steps descend walk.tagKey view.typeName writable plan record).value := by
  refine Visit.steps_induction replaced hstart ?_ hpass
  intro field own replaced value content hmem h hcontent hstop
  obtain ⟨hwritable, hinner⟩ := hdescend _ _ _ _ hstop
  refine ⟨hR.trans h.kept (hR.field ?_ ?_ (hplan field own hmem) hcontent hinner), ?_, ?_, ?_⟩
  · rw [h.resolve, hcategory]
  · rw [h.classOf, hview]
  · rw [Value.classOf_withField, h.classOf]
  · rw [(Value.alike_withField _ _ _).resolve_eq, h.resolve]
  · intro hreplaced
    rcases Bool.or_eq_true_iff.1 hreplaced with hreplaced | hreplaced
    · exact h.writable_of_replaced hreplaced
    · obtain ⟨hfixed, hreplaced⟩ := Bool.and_eq_true_iff.1 hreplaced
      have := hwritable hreplaced
      simp_all

theorem alike_assignField {record new assigned : Value} {name : String}
    (h : record.assignField name new = .ok assigned) :
    assigned.Alike record ∧ assigned.classOf = record.classOf := by
  obtain ⟨head, slots, rfl, -, rfl⟩ := Value.assignField_eq_ok h
  exact ⟨Value.alike_record head _ slots, rfl⟩

theorem Kept.assigned_onTheWay (hR : walk.Kept R) {declared : Annotation} {old record last : Value}
    {view : RecordView} {writable replaced : Bool} {hook : Hook}
    (hcategory : (old.resolve declared).category = .record)
    (hview : walk.view? old.classOf = some view) (hhook : hook ∈ view.hooks)
    (hassigns : ¬hook.AssignsNothing) (hassigned : record.Assigned last)
    (hstart : OnTheWay R writable declared old replaced record) :
    OnTheWay R writable declared old replaced last := by
  induction hassigned with
  | refl => exact hstart
  | step hassign _ ih =>
      obtain ⟨halike, hclass⟩ := alike_assignField hassign
      refine ih ⟨?_, by rw [hclass, hstart.classOf], by rw [halike.resolve_eq, hstart.resolve],
        hstart.writable_of_replaced⟩
      have hkept := hR.trans hstart.kept (hR.assign (by rw [hstart.resolve, hcategory])
        (by rw [hstart.classOf, hview]) hhook hassigns hassign)
      simpa using hkept

theorem Kept.hook_onTheWay (hR : walk.Kept R) {declared : Annotation} {old record : Value}
    {view : RecordView} {writable replaced : Bool} (method : Option Hook)
    (called : Option Value) (context : Value)
    (hcategory : (old.resolve declared).category = .record)
    (hview : walk.view? old.classOf = some view) (hmethod : ∀ hook ∈ method, hook ∈ view.hooks)
    (hstart : OnTheWay R writable declared old replaced record) :
    OnTheWay R writable declared old
      (replaced || (Visit.hook view.typeName called context method record).replaced)
      (Visit.hook view.typeName called context method record).value := by
  unfold Visit.hook
  cases method with
  | none => simpa [Visit.pass] using hstart
  | some hook =>
      simp only [Bool.or_false]
      by_cases hassigns : hook.AssignsNothing
      · rwa [hassigns context record]
      · exact hR.assigned_onTheWay hcategory hview (hmethod hook rfl) hassigns
          (hook.assigned context record) hstart

theorem Kept.record_keeps (hR : walk.Kept R)
    (hdescend : ∀ writable declared value rules,
      Keeps R writable declared value (descend writable declared value rules))
    {declared : Annotation} {value : Value}
    (hcategory : (value.resolve declared).category = .record) (writable : Bool) (rules : RuleSet) :
    Keeps R writable declared value
      (.record descend walk.tokenize walk.tagKey walk.context walk.view? writable value rules) := by
  cases hnull : value.isNull with
  | true =>
      unfold Visit.record
      simp only [hnull, if_true]
      exact hR.missing_keeps hnull declared writable _
  | false =>
      intro hpass
      obtain ⟨-, view, hview, hvisit⟩ := Visit.record_passed hnull hpass
      rw [hvisit] at hpass ⊢
      simp only [Visit.after_stop, Visit.after_value, Visit.after_replaced] at hpass ⊢
      unfold Visit.presentRecord Visit.hooks at hpass ⊢
      obtain ⟨hsteps, hhooks, hvalue, hreplaced⟩ := Visit.andThen_passed hpass
      obtain ⟨hself, hcontext, hvalue', hreplaced'⟩ := Visit.andThen_passed hhooks
      rw [hvalue, hreplaced, hvalue', hreplaced']
      have hstart : OnTheWay R writable declared value false value :=
        ⟨hR.refl declared value, rfl, rfl, by simp⟩
      have hfields := hR.steps_onTheWay hdescend hcategory hview
        (fun field own hmem => (RecordStep.of_descend_mem_all hmem).1) hstart hsteps
      have hfirst := hR.hook_onTheWay view.selfHook none walk.context hcategory hview
        (by simp +contextual [RecordView.hooks]) hfields
      have hlast := hR.hook_onTheWay view.contextHook (some walk.context) walk.context hcategory
        hview (by simp +contextual [RecordView.hooks]) hfirst
      rw [Bool.false_or, Bool.or_assoc] at hlast
      exact ⟨hlast.writable_of_replaced, hlast.kept⟩

end

theorem Kept.visit_keeps {walk : Walk} {R : Bool → Annotation → Value → Value → Prop}
    (hR : walk.Kept R) (hregistry : walk.evaluator? = Registry.standard.get?) (levels : Nat)
    (writable : Bool) (declared : Annotation) (value : Value) (rules : RuleSet) :
    Keeps R writable declared value (walk.visit levels writable declared value rules) := by
  induction levels generalizing writable declared value rules with
  | zero => simp [Walk.visit, Keeps, Visit.abort, Visit.halt]
  | succ levels ih =>
      simp only [Walk.visit]
      split
      · intro _
        exact ⟨by simp [Visit.pass], hR.refl declared value⟩
      · rename_i evaluator hevaluator
        rw [hregistry] at hevaluator
        have hcategory := (Registry.category_of_standard hevaluator).symm
        cases evaluator with
        | optional => exact hR.optional_keeps ih hcategory writable rules
        | reference => exact hR.reference_keeps ih hcategory writable rules
        | scalar kind => exact hR.scalar_keeps hcategory writable rules
        | record => exact hR.record_keeps ih hcategory writable rules
        | sequence => exact hR.sequence_keeps ih hcategory writable rules
        | mapping => exact hR.mapping_keeps ih hcategory writable rules

/-- The step to a field finds the record on its way: the steps before it have kept the relation. -/
theorem Kept.onTheWay_before {walk : Walk} {R : Bool → Annotation → Value → Value → Prop}
    (hR : walk.Kept R) (hregistry : walk.evaluator? = Registry.standard.get?) {levels : Nat}
    {writable : Bool} {declared : Annotation} {value : Value} {view : RecordView}
    {rules own : RuleSet} {field : Field} {before rest : List RecordStep}
    (hcategory : (value.resolve declared).category = .record)
    (hview : walk.view? value.classOf = some view)
    (hplan : RecordStep.all walk.tokenize view.fields rules = before ++ .descend field own :: rest)
    (hbefore : (Visit.steps (walk.visit levels) walk.tagKey view.typeName writable before
      value).stop = none) :
    field ∈ view.fields ∧ OnTheWay R writable declared value
      (Visit.steps (walk.visit levels) walk.tagKey view.typeName writable before value).replaced
      (Visit.steps (walk.visit levels) walk.tagKey view.typeName writable before value).value := by
  have hplanned (target : Field) (given : RuleSet)
      (h : .descend target given ∈ before ++ .descend field own :: rest) : target ∈ view.fields := by
    rw [← hplan] at h
    exact (RecordStep.of_descend_mem_all h).1
  have hstart : OnTheWay R writable declared value false value :=
    ⟨hR.refl declared value, rfl, rfl, by simp⟩
  have hsteps := hR.steps_onTheWay (hR.visit_keeps hregistry levels) hcategory hview
    (fun target given h => hplanned target given (by simp [h])) hstart hbefore
  rw [Bool.false_or] at hsteps
  exact ⟨hplanned field own (by simp), hsteps⟩

end Walk

end RuleCheck
