import RuleCheck.Proofs.Value.Rebuild
import RuleCheck.Proofs.Visit.Fields
import RuleCheck.Proofs.Walk.Frame
import RuleCheck.Proofs.Walk.Lockstep
import RuleCheck.Proofs.Walk.Views

/-! # Visits that write nothing

A visit that passes without writing the place of its value does not need leave to write it.  If fields
are visited with their own rules only, a visit wrote its place exactly if the object in that place does
not hold the value afterwards.
-/

namespace RuleCheck

namespace Walk

/-! ## Leave that is not needed -/

/-- Visits that pass without a write of the place are the same without leave to write it. -/
def Quiet (descend : Bool → Annotation → Value → RuleSet → Visit) : Prop :=
  ∀ declared value rules, (descend true declared value rules).stop = none →
    (descend true declared value rules).replaced = false →
    descend false declared value rules = descend true declared value rules

section

variable {descend : Bool → Annotation → Value → RuleSet → Visit}

theorem quiet_scalar (kind : ScalarKind) {held : Value} {rules : RuleSet}
    (hpass : (kind.visit true held rules).stop = none)
    (hreplaced : (kind.visit true held rules).replaced = false) :
    kind.visit false held rules = kind.visit true held rules := by
  obtain ⟨settled, hsettle, -, ⟨hchanged, -⟩ | ⟨-, -, -, hwritten⟩⟩ := ScalarKind.visit_passed hpass
  · simp [ScalarKind.visit, hsettle, hchanged]
  · rw [hreplaced] at hwritten
    cases hwritten

theorem quiet_items {f g : Nat → Value → Visit}
    (h : ∀ index item, (g index item).stop = none → (g index item).replaced = false →
      f index item = g index item) {index : Nat} {items : List Value}
    (hpass : (Visits.ofItems g index items).stop = none)
    (hreplaced : (Visits.ofItems g index items).replaced = false) :
    Visits.ofItems f index items = Visits.ofItems g index items := by
  induction items generalizing index with
  | nil => rfl
  | cons item items ih =>
      unfold Visits.ofItems at hpass hreplaced ⊢
      cases hstop : (g index item).stop with
      | some stop => simp [hstop, Visits.halted] at hpass
      | none =>
          simp only [hstop, Visits.cons, Bool.or_eq_false_iff] at hpass hreplaced
          simp only [h index item hstop hreplaced.1, hstop, ih hpass hreplaced.2]

theorem itemsWritable_eq_or (value : Value) :
    value.itemsWritable false = value.itemsWritable true ∨ value.isRebuilt = true := by
  unfold Value.itemsWritable Value.isRebuilt
  split
  · exact .inr rfl
  · exact .inl rfl
  · rename_i head _
    cases htuple : head.isTuple
    · exact .inl rfl
    · exact .inr htuple
  · exact .inl rfl

theorem Quiet.sequence (h : Quiet descend) {resolved : Resolved} {value : Value} {rules : RuleSet}
    (hpass : (Visit.sequence descend true resolved value rules).stop = none)
    (hreplaced : (Visit.sequence descend true resolved value rules).replaced = false) :
    Visit.sequence descend false resolved value rules =
      .sequence descend true resolved value rules := by
  rcases itemsWritable_eq_or value with hsame | hrebuilt
  · simp only [Visit.sequence, hsame]
  · cases hnull : value.isNull with
    | true => simp [Visit.sequence, hnull]
    | false =>
        obtain ⟨remaining, items, hremaining, hoversized, hitems, hvisit⟩ :=
          Visit.sequence_passed hnull hpass
        rw [hvisit, Visit.ofItems_stop] at hpass
        rw [hvisit, Visit.ofItems_replaced, hrebuilt, Bool.and_true] at hreplaced
        rw [hvisit]
        simp only [Visit.sequence, hnull, Bool.false_eq_true, if_false, hremaining, hoversized,
          hitems]
        refine congrArg _ (quiet_items (fun index item hstop hown => ?_) hpass hreplaced)
        cases hother : value.itemsWritable false with
        | true => rw [itemsWritable_mono hother]
        | false =>
            cases hwritable : value.itemsWritable true with
            | false => rfl
            | true =>
                rw [hwritable] at hstop hown
                exact h _ _ _ hstop hown

theorem Quiet.field (h : Quiet descend) {record : Value} {field : Field} {rules : RuleSet}
    (hpass : (Visit.field descend true record field rules).stop = none)
    (hreplaced : (Visit.field descend true record field rules).replaced = false) :
    Visit.field descend false record field rules = .field descend true record field rules := by
  unfold Visit.field at hpass hreplaced ⊢
  split
  · rfl
  · rename_i content hcontent
    simp only [hcontent, Option.map_eq_none_iff] at hpass hreplaced
    cases hmutable : record.isMutable with
    | true => rfl
    | false =>
        simp only [hmutable, Bool.false_or, Bool.not_false, Bool.true_and] at hpass hreplaced ⊢
        rw [h _ _ _ hpass hreplaced]

theorem Quiet.steps (h : Quiet descend) {tagKey typeName : String} {plan : List RecordStep}
    {record : Value} (hpass : (Visit.steps descend tagKey typeName true plan record).stop = none)
    (hreplaced : (Visit.steps descend tagKey typeName true plan record).replaced = false) :
    Visit.steps descend tagKey typeName false plan record =
      .steps descend tagKey typeName true plan record := by
  induction plan generalizing record with
  | nil => rfl
  | cons step plan ih =>
      obtain ⟨hfirst, hrest, -, hsplit⟩ := Visit.andThen_passed hpass
      obtain ⟨hown, hlater⟩ := Bool.or_eq_false_iff.1 (hsplit.symm.trans hreplaced)
      have hstep : Visit.step descend tagKey typeName false record step =
          .step descend tagKey typeName true record step := by
        cases step with
        | descend target rules => exact h.field hfirst hown
        | readFields | readRules _ | unknown _ => rfl
      simp only [Visit.steps, hstep, Visit.andThen, hfirst, ih hrest hlater]

theorem Quiet.record (h : Quiet descend) {walk : Walk} {value : Value} {rules : RuleSet}
    (hpass : (Visit.record descend walk.tokenize walk.tagKey walk.context walk.view? true value
      rules).stop = none)
    (hreplaced : (Visit.record descend walk.tokenize walk.tagKey walk.context walk.view? true value
      rules).replaced = false) :
    Visit.record descend walk.tokenize walk.tagKey walk.context walk.view? false value rules =
      .record descend walk.tokenize walk.tagKey walk.context walk.view? true value rules := by
  cases hnull : value.isNull with
  | true => simp [Visit.record, hnull]
  | false =>
      obtain ⟨hzero, view, hview, hvisit⟩ := Visit.record_passed hnull hpass
      rw [hvisit] at hpass hreplaced ⊢
      have hfails : (rules.required && value.zeroFails) = false := by
        cases hrequired : rules.required <;> simp_all
      have hfilled : (rules.required && value.isZero) = false := by
        cases hrequired : rules.required <;> simp_all
      simp only [Visit.record, hnull, Bool.false_eq_true, if_false, hfails, hfilled, hview]
      simp only [Visit.after_stop, Visit.after_replaced] at hpass hreplaced
      unfold Visit.presentRecord at hpass hreplaced ⊢
      obtain ⟨hsteps, -, -, hsplit⟩ := Visit.andThen_passed hpass
      obtain ⟨hown, -⟩ := Bool.or_eq_false_iff.1 (hsplit.symm.trans hreplaced)
      rw [h.steps hsteps hown]

end

theorem quiet_visit (walk : Walk) (levels : Nat) : Quiet (walk.visit levels) := by
  induction levels with
  | zero => exact fun _ _ _ _ _ => rfl
  | succ levels ih =>
      intro declared value rules hpass hreplaced
      simp only [Walk.visit] at hpass hreplaced ⊢
      split
      · rfl
      · rename_i evaluator hevaluator
        simp only [hevaluator] at hpass hreplaced
        cases evaluator with
        | optional =>
            simp only [evaluate, Visit.optional] at hpass hreplaced ⊢
            split
            · rfl
            · rename_i hnull
              simp only [hnull, Bool.false_eq_true, if_false] at hpass hreplaced
              exact ih _ _ _ hpass hreplaced
        | reference => rfl
        | scalar kind => exact quiet_scalar kind hpass hreplaced
        | record => exact ih.record hpass hreplaced
        | sequence => exact ih.sequence hpass hreplaced
        | mapping => rfl

/-! ## Writes that show -/

end Walk

namespace Value

/-- A value, or something inside it. -/
inductive Within : Value → Value → Prop
  | here (value : Value) : Within value value
  | inside {inner child value : Value} (hchild : child ∈ value.children)
      (h : Within inner child) : Within inner value

theorem mem_children_of_field {value content : Value} {name : String}
    (h : value.fieldContent? name = some content) : content ∈ value.children := by
  cases value with
  | record head slots =>
      obtain ⟨_, _, hslots, -⟩ := List.lookup_eq_some_iff.1 h
      simp [children, hslots]
  | box old =>
      simp only [fieldContent?] at h
      split at h
      · cases h
        simp [children]
      · cases h
  | _ => simp [fieldContent?, field?] at h

end Value

namespace RuleSet

theorem targets_eq_nil_iff (rules : RuleSet) :
    rules.targets = [] ↔ ∀ token ∈ rules.tokens, Text.argument? redirectFront token = none := by
  simp [targets, List.filterMap_eq_nil_iff]

theorem checkLengthTokens_subset {value : Value} {key : String} {tokens : List String}
    {rules remaining : RuleSet} (h : checkLengthTokens value key tokens rules = .ok remaining) :
    ∀ token ∈ remaining.tokens, token ∈ rules.tokens := by
  induction tokens generalizing rules with
  | nil =>
      cases h
      exact fun _ h => h
  | cons first tokens ih =>
      simp only [checkLengthTokens, bind, Except.bind] at h
      split at h
      · cases h
      · split at h
        · exact ih h
        · split at h
          · cases h
          · split at h
            · cases h
            · intro token htoken
              exact (List.mem_filter.1 (ih h token htoken)).1

/-- Rules without redirected ones are left of rules without redirected ones. -/
theorem targets_of_subset {rules fewer : RuleSet}
    (h : ∀ token ∈ fewer.tokens, token ∈ rules.tokens) (htargets : rules.targets = []) :
    fewer.targets = [] := by
  rw [targets_eq_nil_iff] at htargets ⊢
  exact fun token htoken => htargets token (h token htoken)

end RuleSet

namespace Walk

variable {walk : Walk}

/-- Whether the fields of every record inside a value are visited with their own rules only. -/
def OwnRulesOnly (walk : Walk) (value : Value) : Prop :=
  ∀ inner : Value, inner.Within value → ∀ view, walk.view? inner.classOf = some view →
    ∀ field ∈ view.fields, (walk.tokenize field.rules).has RuleSet.mainToken = false ∧
      (walk.tokenize field.rules).targets = []

theorem OwnRulesOnly.child {value child : Value} (h : walk.OwnRulesOnly value)
    (hchild : child ∈ value.children) : walk.OwnRulesOnly child :=
  fun inner hinner => h inner (.inside hchild hinner)

/-- An integer has neither fields nor anything inside. -/
theorem ownRulesOnly_ofInt (hrecords : ∀ base view, walk.view? base = some view → base.isRecord = true)
    (n : Int) : walk.OwnRulesOnly (.ofInt n) := by
  intro inner hinner view hview
  cases hinner with
  | here => cases hrecords _ view hview
  | inside hchild _ => cases hchild

theorem OwnRulesOnly.item {value item : Value} {declared : Annotation} {items : List Value}
    (h : walk.OwnRulesOnly value)
    (hrecords : ∀ base view, walk.view? base = some view → base.isRecord = true)
    (hnull : value.isNull = false) (hcategory : (value.resolve declared).category = .list)
    (hitems : value.items? = some items) (hitem : item ∈ items) : walk.OwnRulesOnly item := by
  rcases Value.items_of_resolve hnull hcategory hitems with rfl | ⟨-, hnumbers⟩
  · exact h.child hitem
  · obtain ⟨n, rfl⟩ := hnumbers item hitem
    exact ownRulesOnly_ofInt hrecords n

/-- A visit that passes and leaves what its object holds has not written the place of the object. -/
def Shows (walk : Walk) (descend : Bool → Annotation → Value → RuleSet → Visit) : Prop :=
  ∀ writable declared value rules, walk.OwnRulesOnly value → rules.targets = [] →
    (descend writable declared value rules).stop = none →
    value.graft (descend writable declared value rules).value =
      (descend writable declared value rules).value →
    (descend writable declared value rules).replaced = false

theorem shows_scalar {kind : ScalarKind} {declared : Annotation} {value : Value}
    (hcategory : (value.resolve declared).category = kind.category) {writable : Bool}
    {rules : RuleSet} (hpass : (kind.visit writable value rules).stop = none)
    (hgraft : value.graft (kind.visit writable value rules).value =
      (kind.visit writable value rules).value) :
    (kind.visit writable value rules).replaced = false := by
  rcases ScalarKind.visit_written hpass with ⟨-, hreplaced⟩ | ⟨content, hvalue, -, hne, -⟩
  · exact hreplaced
  · have hfixed : value.graft (.ofScalar content) = value := by
      rcases Value.scalar_of_resolve hcategory with rfl | ⟨origin, own, rfl, -⟩ <;>
        simp [Value.graft]
    rw [hvalue, hfixed] at hgraft
    exact absurd hgraft.symm hne

theorem unreplaced_of_each {R : Nat → Value → Value → Prop} {replaced : Bool} {index : Nat}
    {items news : List Value}
    (h : Visits.Each (fun own index item new => R index item new ∧
      (item.graft new = new → own = false)) replaced index items news)
    (hgraft : Value.graftItems items news = news) : replaced = false := by
  induction h with
  | nil => rfl
  | cons head _ ih =>
      simp only [Value.graftItems, List.cons.injEq] at hgraft
      simp [head.2 hgraft.1, ih hgraft.2]

theorem Shows.sequence {descend : Bool → Annotation → Value → RuleSet → Visit}
    (h : walk.Shows descend) {writable : Bool} {resolved : Resolved} {value : Value}
    {rules : RuleSet} (hown : walk.OwnRulesOnly value) (htargets : rules.targets = [])
    (hpass : (Visit.sequence descend writable resolved value rules).stop = none)
    (hgraft : value.graft (Visit.sequence descend writable resolved value rules).value =
      (Visit.sequence descend writable resolved value rules).value) :
    (Visit.sequence descend writable resolved value rules).replaced = false := by
  cases hnull : value.isNull with
  | true => simp [Visit.sequence, hnull, Visit.missing]
  | false =>
      obtain ⟨remaining, items, hremaining, -, hitems, hvisit⟩ :=
        Visit.sequence_passed hnull hpass
      rw [hvisit, Visit.ofItems_stop] at hpass
      rw [hvisit, Visit.ofItems_value] at hgraft
      rw [hvisit, Visit.ofItems_replaced]
      have heach := Visits.ofItems_passed hpass
      cases hreplaced : (Visits.ofItems _ 0 items).replaced && value.isRebuilt with
      | false => rfl
      | true =>
          obtain ⟨hwritten, hrebuilt⟩ := Bool.and_eq_true_iff.1 hreplaced
          simp only [Value.rebuild, hreplaced, if_true] at hgraft
          -- a plain tuple is left of a plain tuple alone
          cases value with
          | sequence kind derived olds =>
              cases hitems
              have hkind : kind = .tuple := by
                cases kind <;> simp_all [Value.isRebuilt]
              subst hkind
              simp only [Value.graft, SequenceKind.isMutable, Bool.false_eq_true, if_false,
                Value.children, Value.sequence.injEq, true_and] at hgraft
              have hfalse := unreplaced_of_each (R := fun _ _ _ => True)
                (heach.mono fun own index item new hitem hvisit => ⟨trivial, fun hleft => by
                  obtain ⟨hstop, rfl, rfl⟩ := hvisit
                  exact h _ _ _ _ (hown.child (by simpa [Value.children] using hitem))
                    (RuleSet.targets_of_subset (RuleSet.checkLengthTokens_subset hremaining)
                      htargets) hstop hleft⟩)
                hgraft.2
              rw [hfalse] at hwritten
              cases hwritten
          | record head slots =>
              have hhead : head.isMutable = false := by
                simp only [Value.isRebuilt] at hrebuilt
                simp [RecordHead.isMutable, hrebuilt]
              simp [Value.graft, hhead] at hgraft
          | _ => simp [Value.isRebuilt] at hrebuilt

theorem steps_all_of_targets {descend : Bool → Annotation → Value → RuleSet → Visit}
    {typeName : String} {writable : Bool} {fields : List Field} {rules : RuleSet}
    {record : Value} (htargets : rules.targets = [])
    (hpass : (Visit.steps descend walk.tagKey typeName writable
      (RecordStep.all walk.tokenize fields rules) record).stop = none) :
    (Visit.steps descend walk.tagKey typeName writable
        (fields.flatMap (RecordStep.ofField walk.tokenize rules)) record).stop = none ∧
      (Visit.steps descend walk.tagKey typeName writable
          (RecordStep.all walk.tokenize fields rules) record).value =
        (Visit.steps descend walk.tagKey typeName writable
          (fields.flatMap (RecordStep.ofField walk.tokenize rules)) record).value ∧
      (Visit.steps descend walk.tagKey typeName writable
          (RecordStep.all walk.tokenize fields rules) record).replaced =
        (Visit.steps descend walk.tagKey typeName writable
          (fields.flatMap (RecordStep.ofField walk.tokenize rules)) record).replaced := by
  have hplan : RecordStep.all walk.tokenize fields rules =
      .readFields :: fields.flatMap (RecordStep.ofField walk.tokenize rules) := by
    simp [RecordStep.all, htargets]
  rw [hplan] at hpass ⊢
  obtain ⟨-, hrest, hvalue, hreplaced⟩ := Visit.andThen_passed hpass
  exact ⟨hrest, hvalue, hreplaced.trans (Bool.false_or _)⟩

theorem Shows.record {descend : Bool → Annotation → Value → RuleSet → Visit}
    (h : walk.Shows descend) (hdistinct : walk.DistinctFields) (hassign : walk.AssignsNothing)
    {writable : Bool} {value : Value} {rules : RuleSet} (hown : walk.OwnRulesOnly value)
    (htargets : rules.targets = [])
    (hpass : (Visit.record descend walk.tokenize walk.tagKey walk.context walk.view? writable value
      rules).stop = none)
    (hgraft : value.graft (Visit.record descend walk.tokenize walk.tagKey walk.context walk.view?
        writable value rules).value =
      (Visit.record descend walk.tokenize walk.tagKey walk.context walk.view? writable value
        rules).value) :
    (Visit.record descend walk.tokenize walk.tagKey walk.context walk.view? writable value
      rules).replaced = false := by
  cases hnull : value.isNull with
  | true => simp [Visit.record, hnull]
  | false =>
      obtain ⟨-, view, hview, hvisit⟩ := Visit.record_passed hnull hpass
      rw [hvisit] at hpass hgraft ⊢
      simp only [Visit.after_stop, Visit.after_value, Visit.after_replaced] at hpass hgraft ⊢
      unfold Visit.presentRecord at hpass hgraft ⊢
      obtain ⟨hsteps, hhooks, hvalue, hreplaced⟩ := Visit.andThen_passed hpass
      obtain ⟨hleft, hkept⟩ := hooks_of_assignsNothing hassign hview hhooks
      obtain ⟨hfields, hsame, hsame'⟩ := steps_all_of_targets htargets hsteps
      rw [hleft, hsame] at hvalue
      rw [hkept, Bool.or_false, hsame'] at hreplaced
      rw [hvalue] at hgraft
      rw [hreplaced]
      cases hfixed : value.isMutable with
      | true => exact Visit.unreplaced_of_isMutable hfixed hfields
      | false =>
          have hrules := hown value (.here value) view hview
          refine Visit.unreplaced_of_steps (hdistinct _ _ hview)
            (fun field hfield => (hrules field hfield).1) hfixed hfields ?_
          intro field hfield content hcontent hstop hfinal
          refine h _ _ _ _ (hown.child (Value.mem_children_of_field hcontent))
            (hrules field hfield).2 hstop ?_
          exact Value.graft_fieldContent hfixed hgraft hcontent hfinal

theorem shows_visit {walk : Walk} (hstandard : walk.evaluator? = Registry.standard.get?)
    (hdistinct : walk.DistinctFields) (hassign : walk.AssignsNothing) (levels : Nat) :
    walk.Shows (walk.visit levels) := by
  induction levels with
  | zero => exact fun _ _ _ _ _ _ _ _ => rfl
  | succ levels ih =>
      intro writable declared value rules hown htargets hpass hgraft
      simp only [Walk.visit] at hpass hgraft ⊢
      cases hevaluator : walk.evaluator? (value.resolve declared).category with
      | none => rfl
      | some evaluator =>
          simp only [hevaluator] at hpass hgraft ⊢
          cases evaluator with
          | optional =>
              simp only [evaluate, Visit.optional] at hpass hgraft ⊢
              split
              · rfl
              · rename_i hnull
                simp only [hnull, Bool.false_eq_true, if_false] at hpass hgraft
                exact ih _ _ _ _ hown htargets hpass hgraft
          | reference =>
              simp only [evaluate, Visit.reference]
              split
              · split <;> rfl
              · rfl
              · rfl
          | scalar kind =>
              rw [hstandard] at hevaluator
              exact shows_scalar (Registry.category_of_standard hevaluator).symm hpass hgraft
          | record => exact ih.record hdistinct hassign hown htargets hpass hgraft
          | sequence => exact ih.sequence hown htargets hpass hgraft
          | mapping =>
              simp only [evaluate, Visit.mapping]
              repeat' split
              all_goals rfl

end Walk

end RuleCheck
