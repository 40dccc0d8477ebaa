import RuleCheck.Visit.Record
import RuleCheck.Visit.Sequence

/-! # Visits that nothing stopped

What is left by visits that passed: the values of the items of a sequence or the entries of a mapping one by
one, and a record after a number of steps.
-/

namespace RuleCheck

namespace Visit

theorem andThen_passed {visit : Visit} {next : Value → Visit}
    (h : (visit.andThen next).stop = none) :
    visit.stop = none ∧ (next visit.value).stop = none ∧
      (visit.andThen next).value = (next visit.value).value ∧
      (visit.andThen next).replaced = (visit.replaced || (next visit.value).replaced) := by
  unfold andThen at h ⊢
  cases hstop : visit.stop with
  | some stop => simp [hstop] at h
  | none =>
      simp only [hstop] at h ⊢
      exact ⟨trivial, h, trivial, trivial⟩

@[simp] theorem after_stop (events : List Event) (visit : Visit) :
    (visit.after events).stop = visit.stop := rfl

@[simp] theorem after_value (events : List Event) (visit : Visit) :
    (visit.after events).value = visit.value := rfl

@[simp] theorem after_replaced (events : List Event) (visit : Visit) :
    (visit.after events).replaced = visit.replaced := rfl

theorem hooks_replaced (view : RecordView) (context record : Value) :
    (hooks view context record).replaced = false := by
  have hhook (called : Option Value) (method : Option Hook) (record : Value) :
      (hook view.typeName called context method record).replaced = false := by
    cases method <;> rfl
  unfold hooks andThen
  split
  · exact hhook _ _ _
  · simp [hhook]

end Visit

namespace Visits

/-- Values in order, each with what its visit left, and whether one of their places was written. -/
inductive Each (R : Bool → Nat → Value → Value → Prop) : Bool → Nat → List Value → List Value → Prop
  | nil (index : Nat) : Each R false index [] []
  | cons {replaced later : Bool} {index : Nat} {value new : Value} {values news : List Value}
      (head : R replaced index value new) (tail : Each R later (index + 1) values news) :
      Each R (replaced || later) index (value :: values) (new :: news)

theorem Each.length_eq {R : Bool → Nat → Value → Value → Prop} {replaced : Bool} {index : Nat}
    {values news : List Value} (h : Each R replaced index values news) :
    news.length = values.length := by
  induction h with
  | nil => rfl
  | cons _ _ ih => simp [ih]

theorem Each.mono {R S : Bool → Nat → Value → Value → Prop} {replaced : Bool} {index : Nat}
    {values news : List Value} (h : Each R replaced index values news)
    (himp : ∀ replaced index value new, value ∈ values → R replaced index value new →
      S replaced index value new) :
    Each S replaced index values news := by
  induction h with
  | nil index => exact .nil index
  | cons head _ ih =>
      refine .cons (himp _ _ _ _ (by simp) head) (ih ?_)
      exact fun replaced index value new hvalue => himp replaced index value new (by simp [hvalue])

/-- What holds between a value and what is left of it holds at every index. -/
theorem Each.get {R : Bool → Nat → Value → Value → Prop} {replaced : Bool} {index : Nat}
    {values news : List Value} (h : Each R replaced index values news) {i : Nat} {new : Value}
    (hnew : news[i]? = some new) :
    ∃ value own, values[i]? = some value ∧ R own (index + i) value new := by
  induction h generalizing i with
  | nil => simp at hnew
  | cons head _ ih =>
      cases i with
      | zero =>
          simp only [List.getElem?_cons_zero, Option.some.injEq] at hnew ⊢
          subst hnew
          exact ⟨_, _, rfl, head⟩
      | succ i =>
          simp only [List.getElem?_cons_succ] at hnew ⊢
          obtain ⟨value, own, hvalue, hR⟩ := ih hnew
          refine ⟨value, own, hvalue, ?_⟩
          rwa [Nat.add_right_comm] at hR

theorem ofItems_passed {visit : Nat → Value → Visit} {index : Nat} {items : List Value}
    (hpass : (ofItems visit index items).stop = .none) :
    Each
      (fun replaced index value new =>
        (visit index value).stop = .none ∧ replaced = (visit index value).replaced ∧
          new = (visit index value).value)
      (ofItems visit index items).replaced index items (ofItems visit index items).values := by
  induction items generalizing index with
  | nil => exact .nil index
  | cons item items ih =>
      unfold ofItems at hpass ⊢
      cases hstop : (visit index item).stop with
      | some stop => simp [hstop, halted] at hpass
      | none =>
          simp only [hstop, cons] at hpass ⊢
          exact .cons ⟨hstop, rfl, rfl⟩ (ih hpass)

theorem ofEntries_passed {assigned : Bool} {visit : Value → Visit}
    {entries : List (Value × Value)} (index : Nat)
    (hpass : (ofEntries assigned visit entries).stop = .none) :
    Each
      (fun replaced _ value new =>
        (visit value).stop = .none ∧ replaced = (visit value).replaced ∧ new = (visit value).value)
      (ofEntries assigned visit entries).replaced index (entries.map Prod.snd)
      (ofEntries assigned visit entries).values := by
  induction entries generalizing index with
  | nil => exact .nil index
  | cons entry entries ih =>
      obtain ⟨key, value⟩ := entry
      unfold ofEntries at hpass ⊢
      cases hstop : (visit value).stop with
      | some stop => simp [hstop, halted] at hpass
      | none =>
          simp only [hstop, cons] at hpass ⊢
          exact .cons ⟨hstop, rfl, rfl⟩ (ih (index + 1) hpass)

end Visits

namespace Value

@[simp] theorem classOf_withField (value : Value) (name : String) (new : Value) :
    (value.withField name new).classOf = value.classOf := by
  cases value <;> rfl

@[simp] theorem isMutable_withField (value : Value) (name : String) (new : Value) :
    (value.withField name new).isMutable = value.isMutable := by
  cases value <;> rfl

theorem isNull_of_items {value : Value} {items : List Value} (h : value.items? = some items) :
    value.isNull = false := by
  cases value <;> first | rfl | cases h

theorem items?_of_isTuple {head : RecordHead} (h : head.isTuple = true)
    (slots : List (String × Value)) : (record head slots).items? = some (slots.map Prod.snd) := by
  unfold RecordHead.isTuple at h
  cases hkind : head.kind <;> simp_all [items?]

/-- The value once its items were visited: a plain tuple if an item of a tuple was written. -/
def rebuild (value : Value) (replaced : Bool) (items : List Value) : Value :=
  if replaced && value.isRebuilt then .sequence .tuple none items else value.withItems items

/-- Items that are written without a new value around them are items of one that can be changed. -/
theorem isMutable_of_itemsWritable {value : Value} {writable : Bool}
    (h : value.itemsWritable writable = true) (hkept : value.isRebuilt = false) :
    value.isMutable = true := by
  cases value with
  | sequence kind derived items =>
      cases kind with
      | tuple => cases hkept
      | list | deque | set | frozenset => exact h
  | record head slots =>
      have htuple : head.isTuple = false := hkept
      simp [itemsWritable, htuple] at h
  | _ => cases h

theorem assignField_eq_ok {record new assigned : Value} {name : String}
    (h : record.assignField name new = .ok assigned) :
    ∃ head slots, record = .record head slots ∧ head.isMutable = true ∧
      assigned = .record head (slots.map fun (n, old) => (n, if n == name then new else old)) := by
  cases record with
  | record head slots =>
      simp only [assignField] at h
      split at h
      · cases h
      · split at h
        · cases h
        · rename_i htuple hfrozen
          cases h
          exact ⟨head, slots, rfl, by simp [RecordHead.isMutable, htuple, hfrozen], rfl⟩
  | _ => simp [assignField] at h

end Value

namespace Visit

theorem ofItems_value (value : Value) (visits : Visits) :
    (ofItems value visits).value = value.rebuild visits.replaced visits.values := by
  unfold ofItems Value.rebuild
  split <;> rfl

theorem ofItems_replaced (value : Value) (visits : Visits) :
    (ofItems value visits).replaced = (visits.replaced && value.isRebuilt) := by
  unfold ofItems
  split
  · rename_i h
    exact h.symm
  · rename_i h
    simpa using h

@[simp] theorem ofItems_stop (value : Value) (visits : Visits) :
    (ofItems value visits).stop = visits.stop := by
  unfold ofItems
  split <;> rfl

end Visit

namespace RecordStep

theorem of_descend_mem_all {tokenize : String → RuleSet} {fields : List Field} {rules own : RuleSet}
    {field : Field} (h : .descend field own ∈ all tokenize fields rules) :
    field ∈ fields ∧ (own = forwarded rules ∨ own = tokenize field.rules) := by
  simp only [all, List.mem_append, List.mem_flatMap, List.mem_cons, reduceCtorEq, false_or] at h
  rcases h with ⟨name, -, h⟩ | ⟨declared, hdeclared, h⟩
  · simp only [ofTarget, List.mem_cons, reduceCtorEq, false_or, List.not_mem_nil, or_false] at h
    split at h
    · rename_i found hfound
      cases h
      exact ⟨List.mem_of_find?_eq_some hfound, .inl rfl⟩
    · cases h
  · simp only [ofField, List.mem_cons, reduceCtorEq, false_or] at h
    split at h
    · simp at h
    · split at h
      · simp only [List.mem_cons, descend.injEq, List.not_mem_nil, or_false] at h
        rcases h with ⟨rfl, rfl⟩ | ⟨rfl, rfl⟩
        · exact ⟨hdeclared, .inl rfl⟩
        · exact ⟨hdeclared, .inr rfl⟩
      · simp only [List.mem_cons, descend.injEq, List.not_mem_nil, or_false] at h
        obtain ⟨rfl, rfl⟩ := h
        exact ⟨hdeclared, .inr rfl⟩

end RecordStep

namespace Visit

/-- What holds before the steps of a visit and is kept by every visit to a field holds after them. -/
theorem steps_induction {descend : Bool → Annotation → Value → RuleSet → Visit}
    {tagKey typeName : String} {writable : Bool} {P : Bool → Value → Prop}
    {plan : List RecordStep} {record : Value} (replaced : Bool) (hstart : P replaced record)
    (hfield : ∀ (field : Field) (rules : RuleSet) (replaced : Bool) (record content : Value),
      .descend field rules ∈ plan → P replaced record →
      record.fieldContent? field.name = some content →
      (descend (record.isMutable || writable) field.declared content rules).stop = none →
      P (replaced || (!record.isMutable &&
          (descend (record.isMutable || writable) field.declared content rules).replaced))
        (record.withField field.name
          (descend (record.isMutable || writable) field.declared content rules).value))
    (hpass : (steps descend tagKey typeName writable plan record).stop = none) :
    P (replaced || (steps descend tagKey typeName writable plan record).replaced)
      (steps descend tagKey typeName writable plan record).value := by
  induction plan generalizing replaced record with
  | nil => simpa [steps, pass] using hstart
  | cons first rest ih =>
      obtain ⟨hfirst, hrest, hvalue, hreplaced⟩ := andThen_passed hpass
      simp only [steps, hvalue, hreplaced, ← Bool.or_assoc]
      refine ih _ ?_ (fun field rules replaced record content hmem =>
        hfield field rules replaced record content (by simp [hmem])) hrest
      cases first with
      | readFields => simpa [step, pass] using hstart
      | readRules text => simpa [step, pass] using hstart
      | unknown name => simp [step, refuse, halt] at hfirst
      | descend target rules =>
          simp only [step, field] at hfirst ⊢
          cases hcontent : record.fieldContent? target.name with
          | none => simp [hcontent, abort, halt] at hfirst
          | some content =>
              simp only [hcontent, Option.map_eq_none_iff] at hfirst ⊢
              exact hfield target rules replaced record content (by simp) hstart hcontent hfirst

end Visit

/-! ## Visits that passed, evaluator by evaluator -/

namespace Visit

variable {descend : Bool → Annotation → Value → RuleSet → Visit} {writable : Bool}
  {resolved : Resolved} {value : Value} {rules : RuleSet}

theorem reference_present {content : Value} (hnull : content.isNull = false) :
    reference descend resolved (.box content) rules =
      let inner := descend true resolved.element content rules
      ⟨.box inner.value, false, inner.events, inner.stop⟩ := by
  cases content <;> first | rfl | cases hnull

/-- A visit to a sequence that passed checked its length, and then went through its items. -/
theorem sequence_passed (hnull : value.isNull = false)
    (hpass : (sequence descend writable resolved value rules).stop = none) :
    ∃ remaining items, rules.checkLength value sequenceKey = .ok remaining ∧
      value.isOversized = false ∧ value.items? = some items ∧
      sequence descend writable resolved value rules =
        ofItems value (Visits.ofItems
          (fun index item =>
            descend (value.itemsWritable writable) (resolved.item index) item remaining)
          0 items) := by
  unfold sequence at hpass ⊢
  simp only [hnull, Bool.false_eq_true, if_false] at hpass ⊢
  cases hremaining : rules.checkLength value sequenceKey with
  | error stop => simp [hremaining, halt] at hpass
  | ok remaining =>
      simp only [hremaining] at hpass ⊢
      cases hoversized : value.isOversized with
      | true => simp [hoversized, abort, halt] at hpass
      | false =>
          simp only [hoversized, Bool.false_eq_true, if_false] at hpass ⊢
          cases hitems : value.items? with
          | none => simp [hitems, abort, halt] at hpass
          | some items => exact ⟨remaining, items, rfl, trivial, rfl, rfl⟩

/-- A visit to a mapping that passed checked its length, and then went through its entries. -/
theorem mapping_passed (hnull : value.isNull = false)
    (hpass : (mapping descend resolved value rules).stop = none) :
    ∃ remaining kind derived entries, rules.checkLength value mappingKey = .ok remaining ∧
      value = .mapping kind derived entries ∧
      mapping descend resolved value rules =
        let visits :=
          Visits.ofEntries kind.isMutable
            (fun item => descend kind.isMutable resolved.element item remaining) entries
        ⟨value.withEntries visits.values, false, visits.events, visits.stop⟩ := by
  unfold mapping at hpass ⊢
  simp only [hnull, Bool.false_eq_true, if_false] at hpass ⊢
  cases hremaining : rules.checkLength value mappingKey with
  | error stop => simp [hremaining, halt] at hpass
  | ok remaining =>
      simp only [hremaining] at hpass ⊢
      cases value with
      | mapping kind derived entries =>
          exact ⟨remaining, kind, derived, entries, rfl, rfl, rfl⟩
      | _ => simp [abort, halt] at hpass

/-- A visit to a record that passed found it not to be zero, if it must not be, and took all its steps. -/
theorem record_passed {tokenize : String → RuleSet} {tagKey : String} {context : Value}
    {view? : Class → Option RecordView} (hnull : value.isNull = false)
    (hpass : (record descend tokenize tagKey context view? writable value rules).stop = none) :
    (rules.required = true → value.zeroFails = false ∧ value.isZero = false) ∧
      ∃ view, view? value.classOf = some view ∧
        record descend tokenize tagKey context view? writable value rules =
          (presentRecord descend tokenize tagKey context view writable value rules).after
            (if rules.required then zeroEvents value else []) := by
  unfold record at hpass ⊢
  simp only [hnull, Bool.false_eq_true, if_false] at hpass ⊢
  cases hfails : rules.required && value.zeroFails with
  | true => simp [hfails, abort, halt] at hpass
  | false =>
      cases hzero : rules.required && value.isZero with
      | true => simp [hfails, hzero, refuse, halt] at hpass
      | false =>
          simp only [hfails, hzero, Bool.false_eq_true, if_false] at hpass ⊢
          refine ⟨fun hrequired => by simpa [hrequired] using And.intro hfails hzero, ?_⟩
          cases hview : view? value.classOf with
          | none => simp [hview, abort, halt] at hpass
          | some view => exact ⟨view, rfl, rfl⟩

end Visit

end RuleCheck
