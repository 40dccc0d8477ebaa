import RuleCheck.Proofs.Category.Reworded
import RuleCheck.Proofs.Visit.Inert
import RuleCheck.Proofs.Walk.Entailing

/-! # Walks under rules that say the same

Two walks may know the same record types with other rules, which differ only in tokens that say nothing.  Step by
step they visit the same values: what they leave is the same, they are stopped alike, and they call the same hooks.
Only the rule texts that they read are different ones.
-/

namespace RuleCheck

/-- Whether two visits have the same effect, whatever they read. -/
structure Visit.SameEffect (first second : Visit) : Prop where
  value : first.value = second.value
  replaced : first.replaced = second.replaced
  stop : first.stop = second.stop
  calls : first.calls = second.calls

structure Visits.SameEffect (first second : Visits) : Prop where
  values : first.values = second.values
  replaced : first.replaced = second.replaced
  stop : first.stop = second.stop
  calls : first.calls = second.calls

namespace Visit.SameEffect

variable {first second : Visit}

theorem refl (visit : Visit) : visit.SameEffect visit :=
  ⟨rfl, rfl, rfl, rfl⟩

theorem after (h : first.SameEffect second) {events events' : List Event}
    (hevents : events.filterMap Event.call? = events'.filterMap Event.call?) :
    (first.after events).SameEffect (second.after events') :=
  ⟨h.value, h.replaced, h.stop, by rw [calls_after, calls_after, hevents, h.calls]⟩

theorem andThen {next last : Value → Visit} (h : first.SameEffect second)
    (hnext : ∀ value, (next value).SameEffect (last value)) :
    (first.andThen next).SameEffect (second.andThen last) := by
  cases hstop : first.stop with
  | some stop =>
      have hstop' : second.stop = some stop := by rw [← h.stop, hstop]
      simpa only [Visit.andThen, hstop, hstop'] using h
  | none =>
      have hstop' : second.stop = none := by rw [← h.stop, hstop]
      have hrest := hnext first.value
      rw [h.value] at hrest
      refine ⟨?_, ?_, ?_, ?_⟩
      · simpa only [Visit.andThen, hstop, hstop', h.value] using hrest.value
      · simp only [Visit.andThen, hstop, hstop', h.value, h.replaced, hrest.replaced]
      · simpa only [Visit.andThen, hstop, hstop', h.value] using hrest.stop
      · rw [calls_andThen hstop, calls_andThen hstop', h.calls, h.value, hrest.calls]

end Visit.SameEffect

namespace Visits.SameEffect

open Walk (calls_cons)

theorem cons {first second : Visit} {rest last : Visits} (h : first.SameEffect second)
    (hrest : rest.SameEffect last) : (Visits.cons first rest).SameEffect (.cons second last) := by
  refine ⟨?_, ?_, hrest.stop, ?_⟩
  · simp only [Visits.cons, h.value, hrest.values]
  · simp only [Visits.cons, h.replaced, hrest.replaced]
  · rw [calls_cons, calls_cons, h.calls, hrest.calls]

theorem halted {first second : Visit} (h : first.SameEffect second) (stop : Stop) (unreached : List Value) :
    (Visits.halted first stop unreached).SameEffect (.halted second stop unreached) :=
  ⟨by simp only [Visits.halted, h.value], h.replaced, rfl, h.calls⟩

theorem items {f g : Nat → Value → Visit} (h : ∀ index item, (f index item).SameEffect (g index item))
    (index : Nat) (list : List Value) :
    (Visits.ofItems f index list).SameEffect (Visits.ofItems g index list) := by
  induction list generalizing index with
  | nil => exact ⟨rfl, rfl, rfl, rfl⟩
  | cons item list ih =>
      have hfirst := h index item
      unfold Visits.ofItems
      cases hstop : (f index item).stop with
      | some stop =>
          rw [hfirst.stop] at hstop
          simp only [hfirst.stop, hstop]
          exact halted hfirst _ list
      | none =>
          rw [hfirst.stop] at hstop
          simp only [hfirst.stop, hstop]
          exact cons hfirst (ih (index + 1))

theorem entries {f g : Value → Visit} (h : ∀ item, (f item).SameEffect (g item)) (assigned : Bool)
    (list : List (Value × Value)) :
    (Visits.ofEntries assigned f list).SameEffect (Visits.ofEntries assigned g list) := by
  induction list with
  | nil => exact ⟨rfl, rfl, rfl, rfl⟩
  | cons entry list ih =>
      obtain ⟨key, item⟩ := entry
      have hfirst := h item
      unfold Visits.ofEntries
      cases hstop : (f item).stop with
      | some stop =>
          rw [hfirst.stop] at hstop
          simp only [hfirst.stop, hstop, hfirst.value]
          exact ⟨rfl, hfirst.replaced, rfl, hfirst.calls⟩
      | none =>
          rw [hfirst.stop] at hstop
          simp only [hfirst.stop, hstop]
          exact cons hfirst ih

end Visits.SameEffect

theorem Visit.sameEffect_ofItems (value : Value) {visits visits' : Visits} (h : visits.SameEffect visits') :
    (ofItems value visits).SameEffect (ofItems value visits') := by
  refine ⟨?_, ?_, ?_, ?_⟩
  · rw [ofItems_value, ofItems_value, h.values, h.replaced]
  · rw [ofItems_replaced, ofItems_replaced, h.replaced]
  · rw [ofItems_stop, ofItems_stop, h.stop]
  · rw [calls_ofItems, calls_ofItems, h.calls]

/-! ## What a walk knows of record types -/

/-- Whether two fields have one name and say the same, by their annotations and by their rules. -/
structure Field.Reworded (field field' : Field) : Prop where
  name : field.name = field'.name
  declared : field.declared.Reworded field'.declared
  rules : (RuleSet.parse field.rules).AlikeOfField (.parse field'.rules)

structure RecordView.Reworded (view view' : RecordView) : Prop where
  typeName : view.typeName = view'.typeName
  fields : List.Forall₂ Field.Reworded view.fields view'.fields
  selfHook : view.selfHook = view'.selfHook
  contextHook : view.contextHook = view'.contextHook

structure Walk.Reworded (walk walk' : Walk) : Prop where
  evaluator? : walk.evaluator? = walk'.evaluator?
  tokenize : walk.tokenize = .parse
  tokenize' : walk'.tokenize = .parse
  context : walk.context = walk'.context
  view? : ∀ base, (walk.view? base = none ∧ walk'.view? base = none) ∨
    ∃ view view', walk.view? base = some view ∧ walk'.view? base = some view' ∧ view.Reworded view'

/-- Whether two steps of visits to records do the same, up to rules that say the same. -/
inductive RecordStep.Reworded : RecordStep → RecordStep → Prop
  | readFields : Reworded .readFields .readFields
  | readRules (text text' : String) : Reworded (.readRules text) (.readRules text')
  | descend {field field' : Field} {rules rules' : RuleSet} (hfield : field.Reworded field')
      (hrules : rules.Alike rules') : Reworded (.descend field rules) (.descend field' rules')
  | unknown (name : String) : Reworded (.unknown name) (.unknown name)

namespace RecordStep

variable {fields fields' : List Field} {rules rules' : RuleSet}

theorem ofTarget_reworded (hfields : List.Forall₂ Field.Reworded fields fields') (hrules : rules.Alike rules')
    (name : String) : List.Forall₂ Reworded (ofTarget fields rules name) (ofTarget fields' rules' name) := by
  refine .cons .readFields (.cons ?_ .nil)
  induction hfields with
  | nil => exact .unknown name
  | @cons field field' fields fields' hfield _ ih =>
      rw [List.find?_cons, List.find?_cons, hfield.name]
      cases field'.name == name with
      | true => exact .descend hfield hrules.forwarded
      | false => exact ih

theorem ofField_reworded {field field' : Field} (hfield : field.Reworded field')
    (hrules : rules.Alike rules') :
    List.Forall₂ Reworded (ofField .parse rules field) (ofField .parse rules' field') := by
  have hexcluded : (RuleSet.parse field.rules).excluded = (RuleSet.parse field'.rules).excluded :=
    hfield.rules.has_eq (by simp)
  have hmain : (RuleSet.parse field.rules).has RuleSet.mainToken =
      (RuleSet.parse field'.rules).has RuleSet.mainToken := hfield.rules.has_eq (by simp)
  refine .cons (.readRules _ _) ?_
  simp only [hexcluded, hmain]
  split
  · exact .nil
  · split
    · exact .cons (.descend hfield hrules.forwarded) (.cons (.descend hfield hfield.rules.alike) .nil)
    · exact .cons (.descend hfield hfield.rules.alike) .nil

/-- The steps of visits to a record are laid down alike. -/
theorem all_reworded (hfields : List.Forall₂ Field.Reworded fields fields') (hrules : rules.Alike rules') :
    List.Forall₂ Reworded (all .parse fields rules) (all .parse fields' rules') := by
  unfold all
  rw [hrules.targets_eq]
  refine List.rel_append ?_ (.cons .readFields ?_)
  · refine List.rel_flatMap (List.forall₂_same.2 fun _ _ => rfl) ?_
    rintro name _ rfl
    exact ofTarget_reworded hfields hrules name
  · exact List.rel_flatMap hfields fun _ _ hfield => ofField_reworded hfield hrules

end RecordStep

/-! ## Visits -/

namespace Walk

open Visit (SameEffect)

/-- Whether two ways down have the same effect under annotations and rules that say the same. -/
def SameBelow (d e : Bool → Annotation → Value → RuleSet → Visit) : Prop :=
  ∀ writable declared declared' value rules rules', declared.Reworded declared' → rules.Alike rules' →
    SameEffect (d writable declared value rules) (e writable declared' value rules')

variable {d e : Bool → Annotation → Value → RuleSet → Visit} {resolved resolved' : Resolved}
  {rules rules' : RuleSet}

theorem SameBelow.optional (h : SameBelow d e) (hresolved : resolved.Reworded resolved')
    (hrules : rules.Alike rules') (writable : Bool) (value : Value) :
    SameEffect (.optional d writable resolved value rules) (.optional e writable resolved' value rules') := by
  unfold Visit.optional
  rw [hrules.required_eq]
  split
  · exact .refl _
  · exact h _ _ _ _ _ _ hresolved.element hrules

theorem SameBelow.reference (h : SameBelow d e) (hresolved : resolved.Reworded resolved')
    (hrules : rules.Alike rules') (value : Value) :
    SameEffect (.reference d resolved value rules) (.reference e resolved' value rules') := by
  unfold Visit.reference
  split
  · rw [hrules.required_eq]
    exact .refl _
  · rename_i content _
    have hinner := h true _ _ content _ _ hresolved.element hrules
    exact ⟨congrArg Value.box hinner.value, rfl, hinner.stop, hinner.calls⟩
  · exact .refl _

theorem SameBelow.sequence (h : SameBelow d e) (hresolved : resolved.Reworded resolved')
    (hrules : rules.Alike rules') (writable : Bool) (value : Value) :
    SameEffect (.sequence d writable resolved value rules) (.sequence e writable resolved' value rules') := by
  unfold Visit.sequence
  split
  · rw [hrules.missingStop_eq (by decide)]
    exact .refl _
  · rcases hrules.checkLength value (by decide : Visit.sequenceKey ∈ _) with
      ⟨stop, hstop, hstop'⟩ | ⟨remaining, left, hremaining, hleft, hrest⟩
    · rw [hstop, hstop']
      exact .refl _
    · rw [hremaining, hleft]
      simp only
      split
      · exact .refl _
      · split
        · exact .refl _
        · exact Visit.sameEffect_ofItems value
            (.items (fun index item => h _ _ _ item _ _ (hresolved.item index) hrest) 0 _)

theorem SameBelow.mapping (h : SameBelow d e) (hresolved : resolved.Reworded resolved')
    (hrules : rules.Alike rules') (value : Value) :
    SameEffect (.mapping d resolved value rules) (.mapping e resolved' value rules') := by
  unfold Visit.mapping
  split
  · rw [hrules.missingStop_eq (by decide)]
    exact .refl _
  · rcases hrules.checkLength value (by decide : Visit.mappingKey ∈ _) with
      ⟨stop, hstop, hstop'⟩ | ⟨remaining, left, hremaining, hleft, hrest⟩
    · rw [hstop, hstop']
      exact .refl _
    · rw [hremaining, hleft]
      simp only
      split
      · rename_i kind derived entries _
        have hvisits := Visits.SameEffect.entries
          (fun item => h kind.isMutable _ _ item _ _ hresolved.element hrest) kind.isMutable entries
        exact ⟨by simp only [hvisits.values], rfl, hvisits.stop, hvisits.calls⟩
      · exact .refl _

theorem SameBelow.step (h : SameBelow d e) {first second : RecordStep} (hstep : first.Reworded second)
    (tagKey tagKey' typeName : String) (writable : Bool) (record : Value) :
    SameEffect (.step d tagKey typeName writable record first)
      (.step e tagKey' typeName writable record second) := by
  cases hstep with
  | readFields | readRules _ _ => exact (SameEffect.refl _).after rfl
  | unknown name => exact .refl _
  | @descend field field' rules rules' hfield hrules =>
      simp only [Visit.step, Visit.field, hfield.name]
      split
      · exact .refl _
      · rename_i content _
        have hinner := h (record.isMutable || writable) _ _ content _ _ hfield.declared hrules
        exact ⟨by rw [hinner.value], by rw [hinner.replaced], by rw [hinner.stop], hinner.calls⟩

theorem SameBelow.steps (h : SameBelow d e) {plan plan' : List RecordStep}
    (hplan : List.Forall₂ RecordStep.Reworded plan plan') (tagKey tagKey' typeName : String)
    (writable : Bool) (record : Value) :
    SameEffect (.steps d tagKey typeName writable plan record)
      (.steps e tagKey' typeName writable plan' record) := by
  induction hplan generalizing record with
  | nil => exact .refl _
  | cons hstep _ ih => exact (h.step hstep tagKey tagKey' typeName writable record).andThen ih

variable {walk walk' : Walk}

theorem SameBelow.record (h : SameBelow d e) (hwalks : walk.Reworded walk') (hrules : rules.Alike rules')
    (writable : Bool) (value : Value) :
    SameEffect
      (.record d walk.tokenize walk.tagKey walk.context walk.view? writable value rules)
      (.record e walk'.tokenize walk'.tagKey walk'.context walk'.view? writable value rules') := by
  unfold Visit.record
  rw [hrules.required_eq]
  split
  · exact .refl _
  · simp only
    split
    · exact .refl _
    · split
      · exact .refl _
      · rcases hwalks.view? value.classOf with ⟨hnone, hnone'⟩ | ⟨view, view', hview, hview', hsame⟩
        · rw [hnone, hnone']
          exact .refl _
        · rw [hview, hview']
          refine SameEffect.after ?_ rfl
          have hhooks : Visit.hooks view = Visit.hooks view' := by
            funext context record
            rw [Visit.hooks, Visit.hooks, hsame.typeName, hsame.selfHook, hsame.contextHook]
          unfold Visit.presentRecord
          rw [hwalks.tokenize, hwalks.tokenize', hwalks.context, hhooks, hsame.typeName]
          exact (h.steps (RecordStep.all_reworded hsame.fields hrules) _ _ _ writable value).andThen
            fun _ => .refl _

/-- Walks that differ only in rules that say the same have the same effect, with any number of levels. -/
theorem Reworded.sameBelow (hwalks : walk.Reworded walk') (levels : Nat) :
    SameBelow (walk.visit levels) (walk'.visit levels) := by
  induction levels with
  | zero =>
      intro writable declared declared' value rules rules' _ _
      exact .refl _
  | succ levels ih =>
      intro writable declared declared' value rules rules' hdeclared hrules
      have hresolved := hdeclared.resolveAs value false
      have hcategory : (value.resolve declared).category = (value.resolve declared').category :=
        hresolved.category
      simp only [visit, hwalks.evaluator?, hcategory]
      split
      · exact .refl _
      · rename_i evaluator _
        cases evaluator with
        | optional => exact ih.optional hresolved hrules writable value
        | reference => exact ih.reference hresolved hrules value
        | scalar kind =>
            simp only [evaluate, kind.visit_of_alike hrules]
            exact .refl _
        | record => exact ih.record hwalks hrules writable value
        | sequence => exact ih.sequence hresolved hrules writable value
        | mapping => exact ih.mapping hresolved hrules value

end Walk

end RuleCheck
