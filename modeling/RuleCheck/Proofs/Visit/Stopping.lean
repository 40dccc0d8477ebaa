import RuleCheck.Proofs.Visit.Passing

/-! # Visits that were stopped

Where a visit to several values was stopped: at the first of them whose own visit was stopped.  A visit to a
sequence, a mapping or a record is stopped before it gets to what is inside, there, or by a hook.
-/

namespace RuleCheck

namespace Visits

theorem mapIdx_cons_from {α : Type} (make : Nat → Value → α) (index : Nat) (item : Value)
    (items : List Value) : ((item :: items).mapIdx fun i => make (index + i)) =
      make index item :: items.mapIdx fun i => make (index + 1 + i) := by
  have hshift : (fun i => make (index + (i + 1))) = fun i => make (index + 1 + i) := by
    funext i
    rw [Nat.add_comm i 1, Nat.add_assoc]
  rw [List.mapIdx_cons, hshift, Nat.add_zero]

theorem ofItems_stopped {visit : Nat → Value → Visit} {index : Nat} {items : List Value}
    {stop : Stop} (h : (ofItems visit index items).stop = some stop) :
    ∃ i item own, items[i]? = some item ∧ (visit (index + i) item).stop = some own ∧
      stop = own.under (Path.index (index + i)) ∧
      ∀ j other, j < i → items[j]? = some other → (visit (index + j) other).stop = .none := by
  induction items generalizing index with
  | nil => simp [ofItems, none] at h
  | cons item items ih =>
      unfold ofItems at h
      cases hfirst : (visit index item).stop with
      | some own =>
          simp only [hfirst, halted, Option.some.injEq] at h
          exact ⟨0, item, own, rfl, hfirst, h.symm, by simp⟩
      | none =>
          simp only [hfirst, cons] at h
          obtain ⟨i, other, own, hother, hstop, hunder, hbefore⟩ := ih h
          refine ⟨i + 1, other, own, by simpa using hother, ?_, ?_, ?_⟩
          · rwa [← Nat.add_assoc, Nat.add_right_comm]
          · rwa [← Nat.add_assoc, Nat.add_right_comm]
          · intro j earlier hj hearlier
            cases j with
            | zero =>
                simp only [List.getElem?_cons_zero, Option.some.injEq] at hearlier
                subst hearlier
                exact hfirst
            | succ j =>
                rw [← Nat.add_assoc, Nat.add_right_comm]
                exact hbefore j earlier (by omega) (by simpa using hearlier)

theorem ofEntries_stopped {assigned : Bool} {visit : Value → Visit}
    {entries : List (Value × Value)} {stop : Stop}
    (h : (ofEntries assigned visit entries).stop = some stop) :
    ∃ i key value own, entries[i]? = some (key, value) ∧ (visit value).stop = some own ∧
      stop = own.under (Path.key key.keyText) ∧
      ∀ (j : Nat) entry, j < i → entries[j]? = some entry → (visit entry.2).stop = .none := by
  induction entries with
  | nil => simp [ofEntries, none] at h
  | cons entry entries ih =>
      obtain ⟨key, value⟩ := entry
      unfold ofEntries at h
      cases hfirst : (visit value).stop with
      | some own =>
          simp only [hfirst, halted, Option.some.injEq] at h
          exact ⟨0, key, value, own, rfl, hfirst, h.symm, by simp⟩
      | none =>
          simp only [hfirst, cons] at h
          obtain ⟨i, key', value', own, hentry, hstop, hunder, hbefore⟩ := ih h
          refine ⟨i + 1, key', value', own, by simpa using hentry, hstop, hunder, ?_⟩
          intro j earlier hj hearlier
          cases j with
          | zero =>
              simp only [List.getElem?_cons_zero, Option.some.injEq] at hearlier
              subst hearlier
              exact hfirst
          | succ j => exact hbefore j earlier (by omega) (by simpa using hearlier)

end Visits

namespace Visit

theorem andThen_stopped {visit : Visit} {next : Value → Visit} {stop : Stop}
    (h : (visit.andThen next).stop = some stop) :
    visit.stop = some stop ∨ (visit.stop = none ∧ (next visit.value).stop = some stop) := by
  unfold andThen at h
  cases hstop : visit.stop with
  | some own =>
      simp only [hstop] at h
      exact .inl h
  | none =>
      simp only [hstop] at h
      exact .inr ⟨rfl, h⟩

variable {descend : Bool → Annotation → Value → RuleSet → Visit} {tagKey typeName : String}
  {writable : Bool}

/-- The step at which a visit to a record was stopped, after all steps before it had passed. -/
theorem steps_stopped {plan : List RecordStep} {record : Value} {stop : Stop}
    (h : (steps descend tagKey typeName writable plan record).stop = some stop) :
    ∃ before at_ rest, plan = before ++ at_ :: rest ∧
      (steps descend tagKey typeName writable before record).stop = none ∧
      (step descend tagKey typeName writable
        (steps descend tagKey typeName writable before record).value at_).stop = some stop := by
  induction plan generalizing record with
  | nil => simp [steps, pass] at h
  | cons first rest ih =>
      rcases andThen_stopped h with hfirst | ⟨hfirst, hrest⟩
      · exact ⟨[], first, rest, rfl, rfl, hfirst⟩
      · obtain ⟨before, at_, after, hplan, hbefore, hstop⟩ := ih hrest
        have hvalue : (steps descend tagKey typeName writable (first :: before) record).value =
            (steps descend tagKey typeName writable before
              (step descend tagKey typeName writable record first).value).value := by
          simp [steps, andThen, hfirst]
        refine ⟨first :: before, at_, after, by simp [hplan], ?_, ?_⟩
        · simpa [steps, andThen, hfirst] using hbefore
        · rwa [hvalue]

/-- What stopped a step to a field: the field is not there, is unknown, or its own visit was stopped. -/
theorem step_stopped {record : Value} {at_ : RecordStep} {stop : Stop}
    (h : (step descend tagKey typeName writable record at_).stop = some stop) :
    (∃ name, at_ = .unknown name ∧ stop = .refuse (.unknownField name)) ∨
      ∃ target rules, at_ = .descend target rules ∧
        ((record.fieldContent? target.name = none ∧
            stop = .fault (.noAttribute record.classOf.fullName target.name)) ∨
          ∃ content own, record.fieldContent? target.name = some content ∧
            (descend (record.isMutable || writable) target.declared content rules).stop = some own ∧
            stop = own.under target.name) := by
  cases at_ with
  | readFields => simp [step, pass] at h
  | readRules text => simp [step, pass] at h
  | unknown name =>
      simp only [step, refuse, halt, Option.some.injEq] at h
      exact .inl ⟨name, rfl, h.symm⟩
  | descend target rules =>
      refine .inr ⟨target, rules, rfl, ?_⟩
      simp only [step, field] at h
      split at h
      · rename_i hcontent
        simp only [abort, halt, Option.some.injEq] at h
        exact .inl ⟨hcontent, h.symm⟩
      · rename_i content hcontent
        obtain ⟨own, hown, hunder⟩ := Option.map_eq_some_iff.1 h
        exact .inr ⟨content, own, hcontent, hown, hunder.symm⟩

/-! ## Sequences, mappings and records -/

inductive StopsSequence (descend : Bool → Annotation → Value → RuleSet → Visit) (writable : Bool)
    (resolved : Resolved) (value : Value) (rules : RuleSet) : Stop → Prop
  | missing {stop : Stop} (h : rules.missingStop sequenceKey = some stop) :
      StopsSequence descend writable resolved value rules stop
  | length {stop : Stop} (hnull : value.isNull = false) (h : rules.checkLength value sequenceKey = .error stop) :
      StopsSequence descend writable resolved value rules stop
  | oversized (hnull : value.isNull = false) (h : value.isOversized = true) :
      StopsSequence descend writable resolved value rules (.fault .tooLong)
  | notIterable (hnull : value.isNull = false) (h : value.items? = none) :
      StopsSequence descend writable resolved value rules (.fault (.notIterable value.classOf.fullName))
  /-- The first item whose own visit is stopped. -/
  | item {remaining : RuleSet} {items : List Value} {index : Nat} {item : Value} {own : Stop}
      (hnull : value.isNull = false) (hremaining : rules.checkLength value sequenceKey = .ok remaining)
      (hitems : value.items? = some items) (hitem : items[index]? = some item)
      (hstop : (descend (value.itemsWritable writable) (resolved.item index) item remaining).stop = some own)
      (hbefore : ∀ (i : Nat) other, i < index → items[i]? = some other →
        (descend (value.itemsWritable writable) (resolved.item i) other remaining).stop = none) :
      StopsSequence descend writable resolved value rules (own.under (Path.index index))

inductive StopsMapping (descend : Bool → Annotation → Value → RuleSet → Visit) (resolved : Resolved)
    (value : Value) (rules : RuleSet) : Stop → Prop
  | missing {stop : Stop} (h : rules.missingStop mappingKey = some stop) :
      StopsMapping descend resolved value rules stop
  | length {stop : Stop} (hnull : value.isNull = false) (h : rules.checkLength value mappingKey = .error stop) :
      StopsMapping descend resolved value rules stop
  | noEntries (hnull : value.isNull = false)
      (h : ∀ kind derived entries, value ≠ .mapping kind derived entries) :
      StopsMapping descend resolved value rules (.fault (.noAttribute value.classOf.fullName "items"))
  /-- The first entry whose own visit is stopped. -/
  | entry {remaining : RuleSet} {kind : MappingKind} {derived : Option String} {entries : List (Value × Value)}
      {index : Nat} {key item : Value} {own : Stop}
      (hremaining : rules.checkLength value mappingKey = .ok remaining)
      (hvalue : value = .mapping kind derived entries) (hentry : entries[index]? = some (key, item))
      (hstop : (descend kind.isMutable resolved.element item remaining).stop = some own)
      (hbefore : ∀ (i : Nat) other, i < index → entries[i]? = some other →
        (descend kind.isMutable resolved.element other.2 remaining).stop = none) :
      StopsMapping descend resolved value rules (own.under (Path.key key.keyText))

variable {resolved : Resolved} {value : Value} {rules : RuleSet} {stop : Stop}

theorem sequence_stopped (h : (sequence descend writable resolved value rules).stop = some stop) :
    StopsSequence descend writable resolved value rules stop := by
  unfold sequence at h
  cases hnull : value.isNull with
  | true =>
      simp only [hnull, if_true] at h
      exact .missing h
  | false =>
      simp only [hnull, Bool.false_eq_true, if_false] at h
      split at h
      · rename_i own hlength
        cases h
        exact .length hnull hlength
      · rename_i remaining hremaining
        split at h
        · rename_i hoversized
          cases h
          exact .oversized hnull hoversized
        · split at h
          · rename_i hitems
            cases h
            exact .notIterable hnull hitems
          · rename_i items hitems
            rw [ofItems_stop] at h
            obtain ⟨index, item, own, hitem, hstop, rfl, hbefore⟩ := Visits.ofItems_stopped h
            simp only [Nat.zero_add] at hstop hbefore ⊢
            exact .item hnull hremaining hitems hitem hstop hbefore

theorem mapping_stopped (h : (mapping descend resolved value rules).stop = some stop) :
    StopsMapping descend resolved value rules stop := by
  unfold mapping at h
  cases hnull : value.isNull with
  | true =>
      simp only [hnull, if_true] at h
      exact .missing h
  | false =>
      simp only [hnull, Bool.false_eq_true, if_false] at h
      split at h
      · rename_i own hlength
        cases h
        exact .length hnull hlength
      · rename_i remaining hremaining
        split at h
        · obtain ⟨index, key, item, own, hentry, hstop, rfl, hbefore⟩ := Visits.ofEntries_stopped h
          exact .entry hremaining rfl hentry hstop hbefore
        · rename_i hother
          cases h
          exact .noEntries hnull hother

inductive StopsRecord (descend : Bool → Annotation → Value → RuleSet → Visit) (tokenize : String → RuleSet)
    (tagKey : String) (context : Value) (view? : Class → Option RecordView) (writable : Bool) (value : Value)
    (rules : RuleSet) : Stop → Prop
  | missing : StopsRecord descend tokenize tagKey context view? writable value rules (.refuse .missing)
  | zeroFails (hnull : value.isNull = false) (h : value.zeroFails = true) :
      StopsRecord descend tokenize tagKey context view? writable value rules (.fault .tooLong)
  | notRecord (hnull : value.isNull = false) (hview : view? value.classOf = none) :
      StopsRecord descend tokenize tagKey context view? writable value rules
        (.fault (.notRecord value.classOf.display))
  | unknownField (name : String) :
      StopsRecord descend tokenize tagKey context view? writable value rules (.refuse (.unknownField name))
  /-- The record does not have a field that is declared of it. -/
  | missingField {view : RecordView} {before rest : List RecordStep} {target : Field} {own : RuleSet}
      (hnull : value.isNull = false) (hview : view? value.classOf = some view)
      (hplan : RecordStep.all tokenize view.fields rules = before ++ .descend target own :: rest)
      (hbefore : (steps descend tagKey view.typeName writable before value).stop = none)
      (hcontent : (steps descend tagKey view.typeName writable before value).value.fieldContent? target.name =
        none) :
      StopsRecord descend tokenize tagKey context view? writable value rules
        (.fault (.noAttribute (steps descend tagKey view.typeName writable before value).value.classOf.fullName
          target.name))
  /-- The first field whose own visit is stopped, as the steps before it left the field. -/
  | field {view : RecordView} {before rest : List RecordStep} {target : Field} {own : RuleSet}
      {content : Value} {inner : Stop}
      (hnull : value.isNull = false) (hview : view? value.classOf = some view)
      (hplan : RecordStep.all tokenize view.fields rules = before ++ .descend target own :: rest)
      (hbefore : (steps descend tagKey view.typeName writable before value).stop = none)
      (hcontent : (steps descend tagKey view.typeName writable before value).value.fieldContent? target.name =
        some content)
      (hstop : (descend ((steps descend tagKey view.typeName writable before value).value.isMutable || writable)
        target.declared content own).stop = some inner) :
      StopsRecord descend tokenize tagKey context view? writable value rules (inner.under target.name)
  | hook {view : RecordView} {record : Value} {called : Option Value} {method : Option Hook}
      {stop : Stop} (hview : view? value.classOf = some view)
      (hmethod : view.selfHook = method ∨ view.contextHook = method)
      (h : (hook view.typeName called context method record).stop = some stop) :
      StopsRecord descend tokenize tagKey context view? writable value rules stop

theorem record_stopped {tokenize : String → RuleSet} {context : Value} {view? : Class → Option RecordView}
    (h : (record descend tokenize tagKey context view? writable value rules).stop = some stop) :
    StopsRecord descend tokenize tagKey context view? writable value rules stop := by
  unfold record at h
  cases hnull : value.isNull with
  | true =>
      simp only [hnull, if_true] at h
      split at h <;> cases h
      exact .missing
  | false =>
      simp only [hnull, Bool.false_eq_true, if_false] at h
      split at h
      · rename_i hfails
        cases h
        exact .zeroFails hnull (Bool.and_eq_true_iff.1 hfails).2
      · split at h
        · cases h
          exact .missing
        · split at h
          · rename_i view hview
            rw [after_stop] at h
            rcases andThen_stopped h with hsteps | ⟨-, hhooks⟩
            · obtain ⟨before, at_, rest, hplan, hbefore, hstop⟩ := steps_stopped hsteps
              rcases step_stopped hstop with ⟨name, -, rfl⟩ | ⟨target, own, rfl, hfield⟩
              · exact .unknownField name
              · rcases hfield with ⟨hcontent, rfl⟩ | ⟨content, inner, hcontent, hinner, rfl⟩
                · exact .missingField hnull hview hplan hbefore hcontent
                · exact .field hnull hview hplan hbefore hcontent hinner
            · rcases andThen_stopped hhooks with hself | ⟨-, hcontext⟩
              · exact .hook hview (.inl rfl) hself
              · exact .hook hview (.inr rfl) hcontext
          · rename_i hview
            cases h
            exact .notRecord hnull hview

end Visit

end RuleCheck
