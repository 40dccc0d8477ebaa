import RuleCheck.Proofs.Value.Rebuild
import RuleCheck.Proofs.Visit.Fields
import RuleCheck.Proofs.Visit.Lengths
import RuleCheck.Proofs.Walk.Frame
import RuleCheck.Proofs.Walk.Views

/-! # Values that pass satisfy their rules

`Satisfies` tells what rules demand of a value, by the category that it resolves to.  A visit that passes
leaves a value that satisfies the rules of the visit: whatever is visited again later is visited with its
own rules last.
-/

namespace RuleCheck

open Visit (sequenceKey mappingKey)

/-- What is demanded of a value: by the rules it gets, and by those of the fields inside it. -/
inductive Satisfies (view? : Class → Option RecordView) (context : Value) :
    Annotation → Value → RuleSet → Prop
  | unsupported {declared : Annotation} {value : Value} {rules : RuleSet}
      (hcategory : (value.resolve declared).category = .unsupported) :
      Satisfies view? context declared value rules
  | scalar {declared : Annotation} {value : Value} {rules : RuleSet} {kind : ScalarKind}
      {content : Scalar} (hcategory : (value.resolve declared).category = kind.category)
      (hcontent : kind.content? value = some content) (h : kind.Satisfies content rules) :
      Satisfies view? context declared value rules
  | missing {declared : Annotation} {value : Value} {rules : RuleSet}
      (hcategory : (value.resolve declared).category = .optional) (hnull : value.isNull = true)
      (hrequired : rules.required = false) : Satisfies view? context declared value rules
  | present {declared : Annotation} {value : Value} {rules : RuleSet}
      (hcategory : (value.resolve declared).category = .optional) (hnull : value.isNull = false)
      (h : Satisfies view? context (value.resolve declared).element value rules) :
      Satisfies view? context declared value rules
  | emptyBox {declared : Annotation} {rules : RuleSet}
      (hcategory : ((Value.box .null).resolve declared).category = .reference)
      (hrequired : rules.required = false) : Satisfies view? context declared (.box .null) rules
  | box {declared : Annotation} {content : Value} {rules : RuleSet}
      (hcategory : ((Value.box content).resolve declared).category = .reference)
      (hnull : content.isNull = false)
      (h : Satisfies view? context ((Value.box content).resolve declared).element content rules) :
      Satisfies view? context declared (.box content) rules
  | noSequence {declared : Annotation} {value : Value} {rules : RuleSet}
      (hcategory : (value.resolve declared).category = .list) (hnull : value.isNull = true)
      (hrequired : rules.required = false)
      (hlengths : ∀ token ∈ rules.tokens, Comparison.split token sequenceKey = .ok none) :
      Satisfies view? context declared value rules
  | sequence {declared : Annotation} {value : Value} {rules : RuleSet} {items : List Value}
      (hcategory : (value.resolve declared).category = .list) (hnull : value.isNull = false)
      (hlengths : rules.LengthsHold sequenceKey value) (hitems : value.items? = some items)
      (h : ∀ (index : Nat) item, items[index]? = some item →
        Satisfies view? context ((value.resolve declared).item index) item
          (rules.withoutKey sequenceKey)) :
      Satisfies view? context declared value rules
  | noMapping {declared : Annotation} {value : Value} {rules : RuleSet}
      (hcategory : (value.resolve declared).category = .map) (hnull : value.isNull = true)
      (hrequired : rules.required = false)
      (hlengths : ∀ token ∈ rules.tokens, Comparison.split token mappingKey = .ok none) :
      Satisfies view? context declared value rules
  | mapping {declared : Annotation} {kind : MappingKind} {derived : Option String}
      {entries : List (Value × Value)} {rules : RuleSet}
      (hcategory : ((Value.mapping kind derived entries).resolve declared).category = .map)
      (hlengths : rules.LengthsHold mappingKey (.mapping kind derived entries))
      (h : ∀ (index : Nat) item, (entries.map Prod.snd)[index]? = some item →
        Satisfies view? context ((Value.mapping kind derived entries).resolve declared).element item
          (rules.withoutKey mappingKey)) :
      Satisfies view? context declared (.mapping kind derived entries) rules
  | noRecord {declared : Annotation} {value : Value} {rules : RuleSet}
      (hcategory : (value.resolve declared).category = .record) (hnull : value.isNull = true)
      (hrequired : rules.required = false) : Satisfies view? context declared value rules
  | record {declared : Annotation} {value : Value} {rules : RuleSet} {view : RecordView}
      (hcategory : (value.resolve declared).category = .record) (hnull : value.isNull = false)
      (hview : view? value.classOf = some view)
      (hpresent : ∀ field ∈ view.fields, (RuleSet.parse field.rules).excluded = false →
        value.fieldContent? field.name ≠ none)
      (hfields : ∀ field ∈ view.fields, (RuleSet.parse field.rules).excluded = false →
        ∀ content, value.fieldContent? field.name = some content →
          Satisfies view? context field.declared content (RuleSet.parse field.rules))
      (hhooks : ∀ hook ∈ view.hooks, (hook.run context value).2 = none) :
      Satisfies view? context declared value rules

namespace Walk

variable {walk : Walk} {descend : Bool → Annotation → Value → RuleSet → Visit}

def Sound (walk : Walk) (descend : Bool → Annotation → Value → RuleSet → Visit) : Prop :=
  ∀ writable declared value rules, ¬ rules.ShiftsZero →
    (descend writable declared value rules).stop = none →
    Satisfies walk.view? walk.context declared (descend writable declared value rules).value rules

def ReadsScalars (descend : Bool → Annotation → Value → RuleSet → Visit) : Prop :=
  ∀ declared origin content rules, (descend false declared (.scalar origin content) rules).stop = none →
    (descend false declared (.scalar origin content) rules).value = .scalar origin content

theorem Each.eq_of_scalars {index : Nat} {replaced : Bool} {items news : List Value}
    (h : Visits.Each (fun _ _ item new => (∃ origin content, item = .scalar origin content) →
      new = item) replaced index items news)
    (hitems : ∀ item ∈ items, ∃ origin content, item = .scalar origin content) : news = items := by
  induction h with
  | nil => rfl
  | cons head _ ih =>
      have hrest := ih fun item hmem => hitems item (by simp [hmem])
      rw [head (hitems _ (by simp)), hrest]

/-- The numbers of a range are read only, and so left alone. -/
theorem ReadsScalars.range_items (h : ReadsScalars descend) {value : Value} (start stop step : Int)
    (hvalue : value = .range start stop step) {writable : Bool} {resolved : Resolved}
    {rules : RuleSet} {items : List Value} (hitems : value.items? = some items)
    (hpass : (Visits.ofItems (fun index item => descend (value.itemsWritable writable)
      (resolved.item index) item rules) 0 items).stop = none) :
    (Visits.ofItems (fun index item => descend (value.itemsWritable writable)
      (resolved.item index) item rules) 0 items).values = items := by
  subst hvalue
  refine Each.eq_of_scalars ((Visits.ofItems_passed hpass).mono ?_) ?_
  · rintro own index item new - ⟨hstop, -, rfl⟩ ⟨origin, content, rfl⟩
    exact h _ _ _ _ hstop
  · cases hitems
    intro item hitem
    obtain ⟨n, -, rfl⟩ := List.mem_map.1 hitem
    exact ⟨_, _, rfl⟩

theorem Sound.sequence (h : walk.Sound descend) (hreads : ReadsScalars descend) {writable : Bool}
    {declared : Annotation} {value : Value} {rules : RuleSet}
    (hcategory : (value.resolve declared).category = .list) (hshift : ¬ rules.ShiftsZero)
    (hpass : (Visit.sequence descend writable (value.resolve declared) value rules).stop = none)
    (hsame : (Visit.sequence descend writable (value.resolve declared) value rules).value.resolve
      declared = value.resolve declared) :
    Satisfies walk.view? walk.context declared
      (Visit.sequence descend writable (value.resolve declared) value rules).value rules := by
  rw [← hsame] at hcategory
  cases hnull : value.isNull with
  | true =>
      simp only [Visit.sequence, hnull, if_true, Visit.missing] at hpass hcategory ⊢
      obtain ⟨hrequired, hlengths⟩ := RuleSet.missingStop_eq_none hpass
      exact .noSequence hcategory rfl hrequired hlengths
  | false =>
      obtain ⟨remaining, items, hremaining, -, hitems, hvisit⟩ :=
        Visit.sequence_passed hnull hpass
      obtain ⟨hlengths, rfl⟩ := RuleSet.checkLength_eq_ok hremaining
      rw [hvisit, Visit.ofItems_stop] at hpass
      rw [hvisit, Visit.ofItems_value] at hcategory hsame ⊢
      have heach := Visits.ofItems_passed hpass
      obtain ⟨hnews, hlength, hpresent⟩ := Value.items?_rebuild hnull (hsame ▸ hcategory) hitems
        heach.length_eq (fun start stop step hvalue => hreads.range_items start stop step hvalue hitems hpass) _
      refine .sequence hcategory hpresent ?_ hnews ?_
      · unfold RuleSet.LengthsHold
        rwa [hlength]
      · intro index new hnew
        obtain ⟨item, own, -, hstop, -, rfl⟩ := heach.get hnew
        rw [hsame]
        rw [Nat.zero_add] at hstop ⊢
        refine h _ _ _ _ ?_ hstop
        rwa [RuleSet.shiftsZero_withoutKey (by decide)]

theorem Sound.mapping (h : walk.Sound descend) {declared : Annotation} {value : Value}
    {rules : RuleSet} (hcategory : (value.resolve declared).category = .map)
    (hshift : ¬ rules.ShiftsZero)
    (hpass : (Visit.mapping descend (value.resolve declared) value rules).stop = none)
    (hsame : (Visit.mapping descend (value.resolve declared) value rules).value.resolve declared =
      value.resolve declared) :
    Satisfies walk.view? walk.context declared
      (Visit.mapping descend (value.resolve declared) value rules).value rules := by
  rw [← hsame] at hcategory
  cases hnull : value.isNull with
  | true =>
      simp only [Visit.mapping, hnull, if_true, Visit.missing] at hpass hcategory ⊢
      obtain ⟨hrequired, hlengths⟩ := RuleSet.missingStop_eq_none hpass
      exact .noMapping hcategory rfl hrequired hlengths
  | false =>
      obtain ⟨remaining, kind, derived, entries, hremaining, rfl, hvisit⟩ :=
        Visit.mapping_passed hnull hpass
      obtain ⟨hlengths, rfl⟩ := RuleSet.checkLength_eq_ok hremaining
      rw [hvisit] at hpass hcategory hsame ⊢
      have heach := Visits.ofEntries_passed 0 hpass
      have hlength := heach.length_eq
      rw [List.length_map] at hlength
      simp only [Value.withEntries] at hcategory hsame ⊢
      have hitems := Value.map_snd_zipWith hlength
      refine .mapping hcategory ?_ ?_
      · have hcount : (Value.mapping kind derived (List.zipWith (fun entry new => (entry.1, new))
            entries _)).length? = (Value.mapping kind derived entries).length? :=
          congrArg some (by rw [List.length_zipWith, hlength, Nat.min_self])
        unfold RuleSet.LengthsHold
        rwa [hcount]
      · intro index new hnew
        rw [hitems] at hnew
        obtain ⟨item, own, -, hstop, -, rfl⟩ := heach.get hnew
        rw [hsame]
        refine h _ _ _ _ ?_ hstop
        rwa [RuleSet.shiftsZero_withoutKey (by decide)]

theorem Sound.optional (h : walk.Sound descend) {writable : Bool} {declared : Annotation}
    {value : Value} {rules : RuleSet} (hcategory : (value.resolve declared).category = .optional)
    (hshift : ¬ rules.ShiftsZero)
    (hpass : (Visit.optional descend writable (value.resolve declared) value rules).stop = none)
    (hsame : (Visit.optional descend writable (value.resolve declared) value rules).value.resolve
      declared = value.resolve declared)
    (hpresent : value.isNull = false →
      (Visit.optional descend writable (value.resolve declared) value rules).value.isNull = false) :
    Satisfies walk.view? walk.context declared
      (Visit.optional descend writable (value.resolve declared) value rules).value rules := by
  rw [← hsame] at hcategory
  cases hnull : value.isNull with
  | true =>
      simp only [Visit.optional, hnull, if_true, Visit.missing] at hpass hcategory ⊢
      refine .missing hcategory rfl ?_
      cases hrequired : rules.required with
      | false => rfl
      | true => simp [hrequired] at hpass
  | false =>
      have hleft := hpresent hnull
      simp only [Visit.optional, hnull, Bool.false_eq_true, if_false] at hpass hcategory hsame hleft ⊢
      refine .present hcategory hleft ?_
      rw [hsame]
      exact h _ _ _ _ hshift hpass

theorem Sound.reference (h : walk.Sound descend) {declared : Annotation} {value : Value}
    {rules : RuleSet} (hcategory : (value.resolve declared).category = .reference)
    (hshift : ¬ rules.ShiftsZero)
    (hpass : (Visit.reference descend (value.resolve declared) value rules).stop = none)
    (hsame : (Visit.reference descend (value.resolve declared) value rules).value.resolve declared =
      value.resolve declared)
    (hpresent : ∀ content, value = .box content → content.isNull = false →
      (descend true (value.resolve declared).element content rules).stop = none →
      (descend true (value.resolve declared).element content rules).value.isNull = false) :
    Satisfies walk.view? walk.context declared
      (Visit.reference descend (value.resolve declared) value rules).value rules := by
  rw [← hsame] at hcategory
  cases value with
  | box content =>
      by_cases hnull : content = .null
      · subst hnull
        cases hrequired : rules.required with
        | true => simp [Visit.reference, hrequired, Visit.refuse, Visit.halt] at hpass
        | false =>
            simp only [Visit.reference, hrequired, Bool.false_eq_true, if_false, Visit.pass]
              at hcategory ⊢
            exact .emptyBox hcategory hrequired
      · have hcontent := Value.isNull_of_ne_null hnull
        rw [Visit.reference_present hcontent] at hpass hcategory hsame ⊢
        refine .box hcategory (hpresent content rfl hcontent hpass) ?_
        rw [hsame]
        exact h _ _ _ _ hshift hpass
  | _ => simp [Visit.reference, Visit.abort, Visit.halt] at hpass

/-- After the steps for all fields, those that are not excluded satisfy their own rules. -/
theorem Sound.field_of_steps (h : walk.Sound descend) (htokens : walk.tokenize = RuleSet.parse)
    {typeName : String} {fields : List Field} (hdistinct : (fields.map Field.name).Nodup)
    {writable : Bool} {rules : RuleSet} {value : Value}
    (hsteps : (Visit.steps descend walk.tagKey typeName writable
      (RecordStep.all walk.tokenize fields rules) value).stop = none)
    {field : Field} (hfield : field ∈ fields) (hshift : ¬ (RuleSet.parse field.rules).ShiftsZero)
    (hincluded : (RuleSet.parse field.rules).excluded = false) :
    ∃ content, (Visit.steps descend walk.tagKey typeName writable
        (RecordStep.all walk.tokenize fields rules) value).value.fieldContent? field.name =
          some content ∧
      Satisfies walk.view? walk.context field.declared content (RuleSet.parse field.rules) := by
  rw [← htokens] at hincluded
  obtain ⟨writable', old, hstop, hcontent⟩ :=
    Visit.last_visit_of_all hdistinct hsteps hfield hincluded
  refine ⟨_, hcontent, ?_⟩
  rw [htokens] at hstop ⊢
  exact h _ _ _ _ hshift hstop

theorem Sound.record (h : walk.Sound descend) (htokens : walk.tokenize = RuleSet.parse)
    (hdistinct : walk.DistinctFields) (hassign : walk.AssignsNothing)
    (hshifts : ∀ base view, walk.view? base = some view → ∀ field ∈ view.fields,
      ¬ (RuleSet.parse field.rules).ShiftsZero) {writable : Bool} {declared : Annotation}
    {value : Value} {rules : RuleSet} (hcategory : (value.resolve declared).category = .record)
    (hpass : (Visit.record descend walk.tokenize walk.tagKey walk.context walk.view? writable value
      rules).stop = none)
    (hsame : (Visit.record descend walk.tokenize walk.tagKey walk.context walk.view? writable value
      rules).value.resolve declared = value.resolve declared)
    (hpresent : value.isNull = false → (Visit.record descend walk.tokenize walk.tagKey walk.context
      walk.view? writable value rules).value.isNull = false) :
    Satisfies walk.view? walk.context declared
      (Visit.record descend walk.tokenize walk.tagKey walk.context walk.view? writable value
        rules).value rules := by
  rw [← hsame] at hcategory
  cases hnull : value.isNull with
  | true =>
      simp only [Visit.record, hnull, if_true] at hpass hcategory ⊢
      refine .noRecord hcategory rfl ?_
      cases hrequired : rules.required with
      | false => rfl
      | true => simp [hrequired] at hpass
  | false =>
      have hleft := hpresent hnull
      obtain ⟨-, view, hview, hvisit⟩ := Visit.record_passed hnull hpass
      rw [hvisit] at hpass hcategory hleft ⊢
      simp only [Visit.after_stop, Visit.after_value] at hpass hcategory hleft ⊢
      unfold Visit.presentRecord at hpass hcategory hleft ⊢
      obtain ⟨hsteps, hhooks, hvalue, -⟩ := Visit.andThen_passed hpass
      rw [(hooks_of_assignsNothing hassign hview hhooks).1] at hvalue
      rw [hvalue] at hcategory hleft ⊢
      have hclass := Visit.classOf_of_steps hsteps
      refine .record hcategory hleft (by rw [hclass, hview]) ?_ ?_ ?_
      · intro field hfield hincluded hnone
        obtain ⟨content, hcontent, -⟩ := h.field_of_steps htokens (hdistinct _ _ hview) hsteps hfield
          (hshifts _ _ hview field hfield) hincluded
        rw [hcontent] at hnone
        cases hnone
      · intro field hfield hincluded content hcontent
        obtain ⟨other, hother, hsatisfies⟩ := h.field_of_steps htokens (hdistinct _ _ hview) hsteps
          hfield (hshifts _ _ hview field hfield) hincluded
        rw [hother] at hcontent
        cases hcontent
        exact hsatisfies
      · obtain ⟨hself, hcontext, -, -⟩ := Visit.andThen_passed hhooks
        have hkept := (hook_value_of_assignsNothing view.typeName none walk.context
          (Visit.steps descend walk.tagKey view.typeName writable
            (RecordStep.all walk.tokenize view.fields rules) value).value
          (selfHook_assignsNothing hassign hview)).1
        rw [hkept] at hcontext
        intro hook hhook
        rcases RecordView.mem_hooks.1 hhook with hfound | hfound
        · rw [hfound] at hself
          exact hself
        · rw [hfound] at hcontext
          exact hcontext

theorem readsScalars_visit {walk : Walk} (hregistry : walk.evaluator? = Registry.standard.get?)
    (levels : Nat) : ReadsScalars (walk.visit levels) := by
  intro declared origin content rules hread
  have hkept := graft_of_visit hregistry hread (replaced_of_visit hregistry hread)
  simpa [Value.graft] using hkept.symm

/-- A visit that passes leaves a value that satisfies the rules of the visit. -/
theorem sound_visit (walk : Walk) (hregistry : walk.evaluator? = Registry.standard.get?)
    (htokens : walk.tokenize = RuleSet.parse) (hdistinct : walk.DistinctFields)
    (hassign : walk.AssignsNothing)
    (hshifts : ∀ base view, walk.view? base = some view → ∀ field ∈ view.fields,
      ¬ (RuleSet.parse field.rules).ShiftsZero) (levels : Nat) :
    walk.Sound (walk.visit levels) := by
  induction levels with
  | zero =>
      intro writable declared value rules _ hpass
      cases hpass
  | succ levels ih =>
      intro writable declared value rules hshift hpass
      have hsame := resolve_of_visit hregistry hpass
      have hpresent := isNull_of_visit hregistry hpass
      simp only [Walk.visit] at hpass hsame hpresent ⊢
      cases hevaluator : walk.evaluator? (value.resolve declared).category with
      | none =>
          refine .unsupported ?_
          rw [hregistry] at hevaluator
          show (value.resolve declared).category = .unsupported
          cases hcategory : (value.resolve declared).category <;> rw [hcategory] at hevaluator <;>
            first | rfl | cases hevaluator
      | some evaluator =>
          simp only [hevaluator] at hpass hsame hpresent ⊢
          rw [hregistry] at hevaluator
          have hcategory := (Registry.category_of_standard hevaluator).symm
          cases evaluator with
          | optional => exact ih.optional hcategory hshift hpass hsame hpresent
          | reference =>
              refine ih.reference hcategory hshift hpass hsame ?_
              intro content _ hcontent hinner
              exact isNull_of_visit hregistry hinner hcontent
          | scalar kind =>
              obtain ⟨content, hcontent, hsatisfies⟩ := ScalarKind.satisfies_of_visit
                (ScalarKind.suits_of_resolve hcategory) (fun _ => hshift) hpass
              exact .scalar (by rw [hsame]; exact hcategory) hcontent hsatisfies
          | record =>
              exact ih.record htokens hdistinct hassign hshifts hcategory hpass hsame hpresent
          | sequence => exact ih.sequence (readsScalars_visit hregistry levels) hcategory hshift hpass hsame
          | mapping => exact ih.mapping hcategory hshift hpass hsame

end Walk

end RuleCheck
