import RuleCheck.Proofs.Value.Rebuild
import RuleCheck.Proofs.Visit.Parts
import RuleCheck.Proofs.Visit.Repeated
import RuleCheck.Proofs.Walk.Calls
import RuleCheck.Proofs.Walk.Quiet
import RuleCheck.Proofs.Walk.Sound

/-! # Walks that are repeated

A walk over what an earlier walk left finds nothing to write.  That needs four things of the places that
the first walk came to: rules are redirected nowhere and no field is marked `main`, so every place is visited
with the same rules again, no record must be filled, and no text takes a default that its rules would fold.
-/

namespace RuleCheck

open Visit (sequenceKey mappingKey)

/-- Whether a visit passed without writing anything: it found the value that it left. -/
structure Visit.Keeps (visit : Visit) (value : Value) : Prop where
  stop : visit.stop = none
  value_eq : visit.value = value
  replaced : visit.replaced = false
  wrote : .wrote ∉ visit.events

/-- Whether a visit to a place that passed would pass again without writing anything. -/
structure Place.Repeatable (walk : Walk) (place : Place) : Prop where
  untargeted : place.resolved.category = .record → place.rules.targets = []
  unmarked : place.resolved.category = .record → ∀ view, walk.view? place.value.classOf = some view →
    ∀ field ∈ view.fields, (walk.tokenize field.rules).has RuleSet.mainToken = false
  notRequired : place.resolved.category = .record → place.rules.required = false
  defaultFolded : place.resolved.category = .text → ScalarKind.text.DefaultFolded place.rules

/-- Whether all places that a walk comes to are repeatable. -/
def Walk.Repeatable (walk : Walk) (levels : Nat) (place : Place) : Prop :=
  ∀ rest last, walk.Reaches levels place rest last → last.Repeatable walk

/-! ## Visits without a write -/

namespace Visits

structure Keep (visits : Visits) (values : List Value) : Prop where
  stop : visits.stop = .none
  values_eq : visits.values = values
  replaced : visits.replaced = false
  wrote : .wrote ∉ visits.events

theorem keep_ofItems {visit : Nat → Value → Visit} {index : Nat} {items : List Value}
    (h : ∀ (i : Nat) (item : Value), items[i]? = some item → (visit (index + i) item).Keeps item) :
    (ofItems visit index items).Keep items := by
  induction items generalizing index with
  | nil => exact ⟨rfl, rfl, rfl, by simp [ofItems, none]⟩
  | cons item items ih =>
      have hfirst : (visit index item).Keeps item := h 0 item rfl
      have hrest : (ofItems visit (index + 1) items).Keep items := by
        refine ih fun i other hother => ?_
        have hshift : index + 1 + i = index + (i + 1) := by omega
        rw [hshift]
        exact h (i + 1) other hother
      unfold ofItems
      simp only [hfirst.stop, cons, hfirst.value_eq, hfirst.replaced, Bool.false_or]
      refine ⟨hrest.stop, by rw [hrest.values_eq], hrest.replaced, ?_⟩
      simp [hfirst.wrote, hrest.wrote]

theorem keep_ofEntries {assigned : Bool} {visit : Value → Visit} {entries : List (Value × Value)}
    (h : ∀ entry ∈ entries, (visit entry.2).Keeps entry.2) :
    (ofEntries assigned visit entries).Keep (entries.map Prod.snd) := by
  induction entries with
  | nil => exact ⟨rfl, rfl, rfl, by simp [ofEntries, none]⟩
  | cons entry entries ih =>
      obtain ⟨key, value⟩ := entry
      have hfirst : (visit value).Keeps value := h (key, value) (by simp)
      have hrest := ih fun other hother => h other (by simp [hother])
      unfold ofEntries
      simp only [hfirst.stop, cons, hfirst.value_eq, hfirst.replaced, Bool.false_or]
      refine ⟨hrest.stop, by rw [hrest.values_eq]; rfl, hrest.replaced, ?_⟩
      simp [hfirst.wrote, hrest.wrote]

end Visits

namespace Visit

theorem keeps_pass (value : Value) : (pass value).Keeps value :=
  ⟨rfl, rfl, rfl, by simp [pass]⟩

theorem Keeps.andThen {visit : Visit} {next : Value → Visit} {value : Value} (h : visit.Keeps value)
    (hnext : (next value).Keeps value) : (visit.andThen next).Keeps value := by
  simp only [Visit.andThen, h.stop, h.value_eq, h.replaced, Bool.false_or]
  exact ⟨hnext.stop, hnext.value_eq, hnext.replaced, by simp [h.wrote, hnext.wrote]⟩

theorem keeps_steps {descend : Bool → Annotation → Value → RuleSet → Visit}
    {tagKey typeName : String} {writable : Bool} {plan : List RecordStep} {record : Value}
    (h : ∀ first ∈ plan, (step descend tagKey typeName writable record first).Keeps record) :
    (steps descend tagKey typeName writable plan record).Keeps record := by
  induction plan with
  | nil => exact keeps_pass record
  | cons first rest ih =>
      exact (h first (by simp)).andThen (ih fun later hlater => h later (by simp [hlater]))

theorem Keeps.after {visit : Visit} {value : Value} (h : visit.Keeps value) {events : List Event}
    (hevents : .wrote ∉ events) : (visit.after events).Keeps value :=
  ⟨h.stop, h.value_eq, h.replaced, by simp [Visit.after, hevents, h.wrote]⟩

theorem keeps_field {descend : Bool → Annotation → Value → RuleSet → Visit} {writable : Bool}
    {record content : Value} {target : Field} {rules : RuleSet}
    (hcontent : record.fieldContent? target.name = some content)
    (hinner : (descend (record.isMutable || writable) target.declared content rules).Keeps content) :
    (field descend writable record target rules).Keeps record := by
  simp only [field, hcontent]
  refine ⟨?_, ?_, ?_, hinner.wrote⟩
  · rw [hinner.stop]
    rfl
  · rw [hinner.value_eq, Value.withField_self hcontent]
  · rw [hinner.replaced, Bool.and_false]

theorem wrote_not_mem_hooks (view : RecordView) (context record : Value) :
    .wrote ∉ (hooks view context record).events := by
  have hhook (called : Option Value) (method : Option Hook) (record : Value) :
      .wrote ∉ (hook view.typeName called context method record).events := by
    cases method with
    | none => simp [hook, pass]
    | some method => cases hmethod : method.isMethod <;> simp [hook, hmethod]
  unfold hooks andThen
  cases (hook view.typeName none context view.selfHook record).stop with
  | some stop => exact hhook _ _ _
  | none => simp [hhook]

end Visit

/-! ## Evaluators -/

namespace Walk

variable {walk : Walk} {levels : Nat} {place : Place}

theorem Repeatable.here (h : walk.Repeatable levels place) : place.Repeatable walk :=
  h levels place (.here levels place)

theorem Repeatable.call (h : walk.Repeatable (levels + 1) place) {next : Place}
    (hcall : walk.Calls levels place next) : walk.Repeatable levels next :=
  fun rest last hreach => h rest last (.call hcall hreach)

/-- The rules of the places that a walk comes to are those it starts with or those of fields, or less. -/
theorem repeatable_of_rules {P : RuleSet → Prop}
    (hfewer : ∀ rules fewer : RuleSet, P rules →
      (∀ token ∈ fewer.tokens, token ∈ rules.tokens) → P fewer)
    (hfields : ∀ base view, walk.view? base = some view → ∀ field ∈ view.fields,
      P (walk.tokenize field.rules))
    (hrules : ∀ rules, P rules → rules.targets = [] ∧ rules.has RuleSet.mainToken = false ∧
      rules.required = false ∧ ScalarKind.text.DefaultFolded rules)
    (hplace : P place.rules) : walk.Repeatable levels place := by
  intro rest last hreach
  induction hreach with
  | here levels place =>
      obtain ⟨htargets, -, hrequired, hfolded⟩ := hrules _ hplace
      refine ⟨fun _ => htargets, fun _ view hview field hfield => ?_, fun _ => hrequired,
        fun _ => hfolded⟩
      exact (hrules _ (hfields _ view hview field hfield)).2.1
  | call hcall _ ih =>
      apply ih
      cases hcall with
      | present | content => exact hplace
      | item _ _ hremaining | entry _ hremaining =>
          exact hfewer _ _ hplace (RuleSet.checkLengthTokens_subset hremaining)
      | @field view before after field own content _ _ hview hplan =>
          have hmem : .descend field own ∈ before ++ .descend field own :: after := by simp
          rw [← hplan] at hmem
          obtain ⟨hfield, rfl | rfl⟩ := RecordStep.of_descend_mem_all hmem
          · exact hfewer _ _ hplace fun token htoken => (List.mem_filter.1 htoken).1
          · exact hfields _ view hview field hfield

/-- Whether visits that pass find nothing to write when they are made again. -/
def Repeats (walk : Walk) (levels : Nat) : Prop :=
  ∀ place : Place, walk.Repeatable levels place → (walk.visitAt levels place).stop = none →
    (walk.visit levels place.writable place.declared (walk.visitAt levels place).value
      place.rules).Keeps (walk.visitAt levels place).value

theorem Repeats.optional (h : walk.Repeats levels) (hplace : walk.Repeatable (levels + 1) place)
    (hcategory : place.resolved.category = .optional) {left : Value}
    (hpass : (Visit.optional (walk.visit levels) place.writable place.resolved place.value
      place.rules).stop = none)
    (hleft : (Visit.optional (walk.visit levels) place.writable place.resolved place.value
      place.rules).value = left)
    (hpresent : place.value.isNull = false → left.isNull = false) :
    (Visit.optional (walk.visit levels) place.writable place.resolved left place.rules).Keeps left := by
  unfold Visit.optional at hpass hleft ⊢
  cases hnull : place.value.isNull with
  | true =>
      simp only [hnull, if_true, Visit.missing] at hpass hleft
      subst hleft
      simp only [Value.isNull, if_true, Visit.missing]
      exact ⟨hpass, rfl, rfl, by simp⟩
  | false =>
      simp only [hnull, Bool.false_eq_true, if_false] at hpass hleft
      simp only [hpresent hnull, Bool.false_eq_true, if_false]
      subst hleft
      exact h _ (hplace.call (.present hcategory hnull)) hpass

theorem Repeats.reference (hregistry : walk.evaluator? = Registry.standard.get?)
    (h : walk.Repeats levels) (hplace : walk.Repeatable (levels + 1) place)
    (hcategory : place.resolved.category = .reference) {left : Value}
    (hpass : (Visit.reference (walk.visit levels) place.resolved place.value place.rules).stop = none)
    (hleft : (Visit.reference (walk.visit levels) place.resolved place.value place.rules).value =
      left) :
    (Visit.reference (walk.visit levels) place.resolved left place.rules).Keeps left := by
  cases hvalue : place.value with
  | box content =>
      rw [hvalue] at hpass hleft
      by_cases hempty : content = .null
      · subst hempty
        cases hrequired : place.rules.required with
        | true => simp [Visit.reference, hrequired, Visit.refuse, Visit.halt] at hpass
        | false =>
            simp only [Visit.reference, hrequired, Bool.false_eq_true, if_false, Visit.pass] at hleft
            subst hleft
            simp only [Visit.reference, hrequired, Bool.false_eq_true, if_false]
            exact Visit.keeps_pass _
      · have hnull := Value.isNull_of_ne_null hempty
        rw [Visit.reference_present hnull] at hpass hleft
        subst hleft
        have hinner := h _ (hplace.call (.content hcategory hvalue hnull)) hpass
        have hpresent := isNull_of_visit hregistry hpass hnull
        rw [Visit.reference_present hpresent]
        exact ⟨hinner.stop, congrArg Value.box hinner.value_eq, rfl, hinner.wrote⟩
  | _ => simp [hvalue, Visit.reference, Visit.abort, Visit.halt] at hpass

theorem Repeats.sequence (h : walk.Repeats levels) (hreads : ReadsScalars (walk.visit levels))
    (hplace : walk.Repeatable (levels + 1) place) (hcategory : place.resolved.category = .list)
    {left : Value}
    (hpass : (Visit.sequence (walk.visit levels) place.writable place.resolved place.value
      place.rules).stop = none)
    (hleft : (Visit.sequence (walk.visit levels) place.writable place.resolved place.value
      place.rules).value = left) :
    (Visit.sequence (walk.visit levels) place.writable place.resolved left place.rules).Keeps left := by
  cases hnull : place.value.isNull with
  | true =>
      simp only [Visit.sequence, hnull, if_true, Visit.missing] at hpass hleft
      subst hleft
      simp only [Visit.sequence, Value.isNull, if_true, Visit.missing]
      exact ⟨hpass, rfl, rfl, by simp⟩
  | false =>
      obtain ⟨remaining, items, hremaining, hsize, hitems, hvisit⟩ :=
        Visit.sequence_passed hnull hpass
      rw [hvisit, Visit.ofItems_stop] at hpass
      rw [hvisit, Visit.ofItems_value] at hleft
      have heach := Visits.ofItems_passed hpass
      have hbefore := Visits.ofItems_passes_iff.1 hpass
      have hrange := fun start stop step hvalue =>
        hreads.range_items start stop step hvalue hitems hpass
      generalize Visits.ofItems (fun index item => walk.visit levels
        (place.value.itemsWritable place.writable) (place.resolved.item index) item remaining) 0
        items = visits at hleft heach hrange
      obtain ⟨hnews, hlength, hpresent⟩ := Value.items?_rebuild hnull hcategory hitems
        heach.length_eq hrange visits.replaced
      obtain ⟨hoversized, hwritable⟩ :=
        Value.rebuild_like place.value visits.replaced place.writable visits.values
      rw [hleft] at hnews hlength hpresent hoversized hwritable
      have hchecked : place.rules.checkLength left sequenceKey = .ok remaining := by
        obtain ⟨n, hn⟩ := Value.length_of_list hnull hcategory
        have hsame : left.lengthOrFault = place.value.lengthOrFault := by
          simp only [Value.lengthOrFault, hoversized, hlength, hn]
        rw [RuleSet.checkLength_congr (hpresent.trans hnull.symm) hsame, hremaining]
      have hkeep : (Visits.ofItems (fun index item => walk.visit levels
          (left.itemsWritable place.writable) (place.resolved.item index) item remaining) 0
          visits.values).Keep visits.values := by
        refine Visits.keep_ofItems fun i new hnew => ?_
        obtain ⟨item, own, hitem, hstop, -, rfl⟩ := heach.get hnew
        rw [hwritable]
        rw [Nat.zero_add] at hstop ⊢
        refine h _ (hplace.call (.item hcategory hnull hremaining hitems hitem ?_)) hstop
        intro j other _ hother
        have hother := hbefore j other hother
        rwa [Nat.zero_add] at hother
      unfold Visit.sequence
      simp only [hpresent, Bool.false_eq_true, if_false, hchecked, hoversized, hsize, hnews]
      unfold Visit.ofItems
      simp only [hkeep.replaced, Bool.false_and, Bool.false_eq_true, if_false]
      refine ⟨hkeep.stop, ?_, rfl, hkeep.wrote⟩
      rw [hkeep.values_eq, Value.withItems_self hnews]

theorem Repeats.mapping (h : walk.Repeats levels) (hplace : walk.Repeatable (levels + 1) place)
    (hcategory : place.resolved.category = .map) {left : Value}
    (hpass : (Visit.mapping (walk.visit levels) place.resolved place.value place.rules).stop = none)
    (hleft : (Visit.mapping (walk.visit levels) place.resolved place.value place.rules).value = left) :
    (Visit.mapping (walk.visit levels) place.resolved left place.rules).Keeps left := by
  cases hnull : place.value.isNull with
  | true =>
      simp only [Visit.mapping, hnull, if_true, Visit.missing] at hpass hleft
      subst hleft
      simp only [Visit.mapping, Value.isNull, if_true, Visit.missing]
      exact ⟨hpass, rfl, rfl, by simp⟩
  | false =>
      obtain ⟨remaining, kind, derived, entries, hremaining, hvalue, hvisit⟩ :=
        Visit.mapping_passed hnull hpass
      rw [hvisit] at hpass hleft
      have heach := Visits.ofEntries_passed 0 hpass
      have hbefore := Visits.ofEntries_passes_iff.1 hpass
      simp only [hvalue, Value.withEntries] at hleft
      generalize Visits.ofEntries kind.isMutable (fun item => walk.visit levels kind.isMutable
        place.resolved.element item remaining) entries = visits at hleft heach
      have hlength := heach.length_eq
      rw [List.length_map] at hlength
      have hnews := Value.map_snd_zipWith hlength
      generalize List.zipWith (fun entry new => (entry.1, new)) entries visits.values = news
        at hleft hnews
      have hchecked : place.rules.checkLength left mappingKey = .ok remaining := by
        have hsame : left.lengthOrFault = place.value.lengthOrFault := by
          have hcount := congrArg List.length hnews
          rw [List.length_map, hlength] at hcount
          simp [← hleft, hvalue, Value.lengthOrFault, Value.isOversized, Value.length?, hcount]
        have hpresent : left.isNull = place.value.isNull := by rw [← hleft, hvalue]; rfl
        rw [RuleSet.checkLength_congr hpresent hsame, hremaining]
      have hkeep : (Visits.ofEntries kind.isMutable (fun item => walk.visit levels kind.isMutable
          place.resolved.element item remaining) news).Keep (news.map Prod.snd) := by
        refine Visits.keep_ofEntries fun entry hentry => ?_
        obtain ⟨i, hi⟩ := List.mem_iff_getElem?.1 hentry
        have hnew : visits.values[i]? = some entry.2 := by
          rw [← hnews, List.getElem?_map, hi]
          rfl
        obtain ⟨item, own, hitem, hstop, -, hnewValue⟩ := heach.get hnew
        obtain ⟨key, hold⟩ : ∃ key, entries[i]? = some (key, item) := by
          rw [List.getElem?_map, Option.map_eq_some_iff] at hitem
          obtain ⟨⟨key, old⟩, hold, rfl⟩ := hitem
          exact ⟨key, hold⟩
        rw [hnewValue]
        refine h _ (hplace.call (.entry hcategory hremaining hvalue hold ?_)) hstop
        exact fun j other _ hother => hbefore other (List.mem_of_getElem? hother)
      rw [← hleft] at hchecked ⊢
      unfold Visit.mapping
      simp only [Value.isNull, Bool.false_eq_true, if_false, hchecked]
      refine ⟨hkeep.stop, ?_, rfl, hkeep.wrote⟩
      rw [hkeep.values_eq, Value.withEntries_self]

theorem Repeats.steps (h : walk.Repeats levels) (hdistinct : walk.DistinctFields)
    (hplace : walk.Repeatable (levels + 1) place) (hcategory : place.resolved.category = .record)
    (hnull : place.value.isNull = false) {view : RecordView}
    (hview : walk.view? place.value.classOf = some view) {left : Value}
    (hpass : (Visit.steps (walk.visit levels) walk.tagKey view.typeName place.writable
      (RecordStep.all walk.tokenize view.fields place.rules) place.value).stop = none)
    (hleft : (Visit.steps (walk.visit levels) walk.tagKey view.typeName place.writable
      (RecordStep.all walk.tokenize view.fields place.rules) place.value).value = left) :
    (Visit.steps (walk.visit levels) walk.tagKey view.typeName place.writable
      (RecordStep.all walk.tokenize view.fields place.rules) left).Keeps left := by
  have hmutable : left.isMutable = place.value.isMutable := by
    rw [← hleft, Visit.isMutable_of_steps hpass]
  have hplan : RecordStep.all walk.tokenize view.fields place.rules =
      .readFields :: view.fields.flatMap (RecordStep.ofField walk.tokenize place.rules) := by
    simp [RecordStep.all, hplace.here.untargeted hcategory]
  obtain ⟨hfields, hfieldsLeft, -⟩ :=
    steps_all_of_targets (hplace.here.untargeted hcategory) hpass
  rw [hleft] at hfieldsLeft
  refine Visit.keeps_steps fun first hfirst => ?_
  rw [hplan, List.mem_cons] at hfirst
  rcases hfirst with rfl | hfirst
  · exact (Visit.keeps_pass left).after (by simp)
  obtain ⟨field, hfield, hstep⟩ := List.mem_flatMap.1 hfirst
  have hmain := hplace.here.unmarked hcategory view hview field hfield
  cases hincluded : (walk.tokenize field.rules).excluded with
  | true =>
      simp only [RecordStep.ofField, hincluded, if_true, List.mem_singleton] at hstep
      subst hstep
      exact (Visit.keeps_pass left).after (by simp)
  | false =>
      simp only [RecordStep.ofField, hincluded, hmain, Bool.false_eq_true, if_false,
        List.mem_cons, List.not_mem_nil, or_false] at hstep
      rcases hstep with rfl | rfl
      · exact (Visit.keeps_pass left).after (by simp)
      -- the field holds what its only visit left, and that visit was one that the record called for
      obtain ⟨before, after, hsplit⟩ := List.append_of_mem hfield
      rw [hsplit] at hfields hfieldsLeft
      have hnames := hdistinct _ _ hview
      rw [hsplit] at hnames
      obtain ⟨content, -, hbefore, hcontent, hstop, hnew⟩ :=
        Visit.field_of_steps hnames hincluded hmain hfields
      rw [← hfieldsLeft] at hnew
      have hplanned : RecordStep.all walk.tokenize view.fields place.rules =
          (.readFields :: (before.flatMap (RecordStep.ofField walk.tokenize place.rules) ++
            [.readRules field.rules])) ++ .descend field (walk.tokenize field.rules) ::
            after.flatMap (RecordStep.ofField walk.tokenize place.rules) := by
        rw [hplan, hsplit, RecordStep.ofFields_split place.rules hincluded hmain]
        rfl
      have hcall : walk.Calls levels place _ :=
        .field hcategory hnull hview hplanned hbefore hcontent
      refine Visit.keeps_field hnew ?_
      have hkept := Visit.isMutable_of_steps hbefore
      rw [hmutable, ← hkept]
      rw [← hkept] at hstop
      exact h _ (hplace.call hcall) hstop

theorem Repeats.record (h : walk.Repeats levels) (hdistinct : walk.DistinctFields)
    (hassign : walk.AssignsNothing) (hplace : walk.Repeatable (levels + 1) place)
    (hcategory : place.resolved.category = .record) {left : Value}
    (hpass : (Visit.record (walk.visit levels) walk.tokenize walk.tagKey walk.context walk.view?
      place.writable place.value place.rules).stop = none)
    (hleft : (Visit.record (walk.visit levels) walk.tokenize walk.tagKey walk.context walk.view?
      place.writable place.value place.rules).value = left)
    (hpresent : place.value.isNull = false → left.isNull = false) :
    (Visit.record (walk.visit levels) walk.tokenize walk.tagKey walk.context walk.view?
      place.writable left place.rules).Keeps left := by
  have hrequired := hplace.here.notRequired hcategory
  cases hnull : place.value.isNull with
  | true =>
      simp only [Visit.record, hnull, if_true] at hleft
      subst hleft
      simp only [Visit.record, Value.isNull, if_true, hrequired, Bool.false_eq_true, if_false]
      exact ⟨rfl, rfl, rfl, by simp⟩
  | false =>
      obtain ⟨-, view, hview, hvisit⟩ := Visit.record_passed hnull hpass
      rw [hvisit, Visit.after_stop] at hpass
      rw [hvisit, Visit.after_value] at hleft
      unfold Visit.presentRecord at hpass hleft
      obtain ⟨hsteps, hhooks, hvalue, -⟩ := Visit.andThen_passed hpass
      obtain ⟨hkept, hunreplaced⟩ := hooks_of_assignsNothing hassign hview hhooks
      rw [hvalue, hkept] at hleft
      rw [hleft] at hhooks hkept hunreplaced
      have hclass : left.classOf = place.value.classOf := by rw [← hleft, Visit.classOf_of_steps hsteps]
      have hagain := h.steps hdistinct hplace hcategory hnull hview hsteps hleft
      unfold Visit.record
      simp only [hpresent hnull, Bool.false_eq_true, if_false, hrequired, Bool.false_and, hclass, hview]
      exact hagain.andThen ⟨hhooks, hkept, hunreplaced, Visit.wrote_not_mem_hooks _ _ _⟩

end Walk

/-! ## Walks -/

namespace Walk

variable {walk : Walk}

/-- A visit that passes leaves a value that the same visit passes without writing anything. -/
theorem repeats_visit (hregistry : walk.evaluator? = Registry.standard.get?)
    (hdistinct : walk.DistinctFields) (hassign : walk.AssignsNothing) (levels : Nat) :
    walk.Repeats levels := by
  induction levels with
  | zero =>
      intro place _ hpass
      cases hpass
  | succ levels ih =>
      intro place hplace hpass
      have hsame := resolve_of_visit hregistry hpass
      have hpresent := isNull_of_visit hregistry hpass
      generalize hleft : (walk.visitAt (levels + 1) place).value = left
      rw [show (walk.visit (levels + 1) _ _ _ _).value = left from hleft] at hsame hpresent
      simp only [visitAt, Walk.visit] at hpass hleft ⊢
      rw [hsame]
      cases hevaluator : walk.evaluator? (place.value.resolve place.declared).category with
      | none =>
          simp only [hevaluator, Visit.after_value, Visit.pass] at hleft ⊢
          exact (Visit.keeps_pass left).after (by simp)
      | some evaluator =>
          simp only [hevaluator] at hpass hleft ⊢
          rw [hregistry] at hevaluator
          have hcategory := (Registry.category_of_standard hevaluator).symm
          cases evaluator with
          | optional => exact ih.optional hplace hcategory hpass hleft hpresent
          | reference => exact ih.reference hregistry hplace hcategory hpass hleft
          | scalar kind =>
              have hfolds : kind.DefaultFolded place.rules := fun hkind => by
                subst hkind
                exact hplace.here.defaultFolded hcategory rfl
              have hagain := ScalarKind.visit_again hfolds hpass
              simp only [evaluate] at hleft ⊢
              rw [hleft] at hagain
              rw [hagain]
              exact Visit.keeps_pass _
          | record => exact ih.record hdistinct hassign hplace hcategory hpass hleft hpresent
          | sequence => exact ih.sequence (readsScalars_visit hregistry levels) hplace hcategory hpass hleft
          | mapping => exact ih.mapping hplace hcategory hpass hleft

end Walk

end RuleCheck
