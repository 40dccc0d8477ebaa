import RuleCheck.Proofs.Value.Rebuild
import RuleCheck.Proofs.Visit.Fields
import RuleCheck.Proofs.Visit.ScalarFaults
import RuleCheck.Proofs.Visit.Stopping
import RuleCheck.Proofs.Walk.Kept

/-! # The places that a walk comes to

A visit to a place calls for visits to other places, each only after the ones before it have passed.  A
fault that stops a walk is one of the last place that the walk came to: of its rules, of what it holds, or
of a hook.
-/

namespace RuleCheck

/-- A value with what is declared of it, the rules it gets, and whether it can be exchanged. -/
structure Place where
  writable : Bool
  declared : Annotation
  value : Value
  rules : RuleSet

namespace Place

/-- The category of the value, and what is declared of the things inside. -/
def resolved (place : Place) : Resolved :=
  place.value.resolve place.declared

end Place

namespace Walk

def visitAt (walk : Walk) (levels : Nat) (place : Place) : Visit :=
  walk.visit levels place.writable place.declared place.value place.rules

/-- A visit to the first place, with so many levels below it, calls for a visit to the second one. -/
inductive Calls (walk : Walk) (levels : Nat) (place : Place) : Place → Prop
  | present (hcategory : place.resolved.category = .optional)
      (hnull : place.value.isNull = false) :
      Calls walk levels place { place with declared := place.resolved.element }
  | content {content : Value} (hcategory : place.resolved.category = .reference)
      (hvalue : place.value = .box content) (hnull : content.isNull = false) :
      Calls walk levels place ⟨true, place.resolved.element, content, place.rules⟩
  | item {remaining : RuleSet} {items : List Value} {index : Nat} {item : Value}
      (hcategory : place.resolved.category = .list) (hnull : place.value.isNull = false)
      (hremaining : place.rules.checkLength place.value Visit.sequenceKey = .ok remaining)
      (hitems : place.value.items? = some items) (hitem : items[index]? = some item)
      (hbefore : ∀ (i : Nat) other, i < index → items[i]? = some other →
        (walk.visit levels (place.value.itemsWritable place.writable) (place.resolved.item i) other
          remaining).stop = none) :
      Calls walk levels place
        ⟨place.value.itemsWritable place.writable, place.resolved.item index, item, remaining⟩
  | entry {remaining : RuleSet} {kind : MappingKind} {derived : Option String}
      {entries : List (Value × Value)} {index : Nat} {key item : Value}
      (hcategory : place.resolved.category = .map)
      (hremaining : place.rules.checkLength place.value Visit.mappingKey = .ok remaining)
      (hvalue : place.value = .mapping kind derived entries)
      (hentry : entries[index]? = some (key, item))
      (hbefore : ∀ (i : Nat) other, i < index → entries[i]? = some other →
        (walk.visit levels kind.isMutable place.resolved.element other.2 remaining).stop = none) :
      Calls walk levels place ⟨kind.isMutable, place.resolved.element, item, remaining⟩
  | field {view : RecordView} {before rest : List RecordStep} {field : Field} {rules : RuleSet}
      {content : Value} (hcategory : place.resolved.category = .record)
      (hnull : place.value.isNull = false)
      (hview : walk.view? place.value.classOf = some view)
      (hplan : RecordStep.all walk.tokenize view.fields place.rules =
        before ++ .descend field rules :: rest)
      (hbefore : (Visit.steps (walk.visit levels) walk.tagKey view.typeName place.writable before
        place.value).stop = none)
      (hcontent : (Visit.steps (walk.visit levels) walk.tagKey view.typeName place.writable before
        place.value).value.fieldContent? field.name = some content) :
      Calls walk levels place
        ⟨(Visit.steps (walk.visit levels) walk.tagKey view.typeName place.writable before
          place.value).value.isMutable || place.writable, field.declared, content, rules⟩

/-- The places that a visit comes to, each with the number of levels that are left there. -/
inductive Reaches (walk : Walk) : Nat → Place → Nat → Place → Prop
  | here (levels : Nat) (place : Place) : Reaches walk levels place levels place
  | call {levels rest : Nat} {place next last : Place} (hcall : walk.Calls levels place next)
      (hreach : Reaches walk levels next rest last) : Reaches walk (levels + 1) place rest last

inductive OwnFault (walk : Walk) (place : Place) : Fault → Prop
  /-- A token of its rules cannot be used. -/
  | token {kind : ScalarKind} {token : String} {fault : Fault}
      (hcategory : place.resolved.category = kind.category) (htoken : token ∈ place.rules.tokens)
      (h : kind.Escapes token fault) : OwnFault walk place fault
  /-- Nothing is held where a box is declared. -/
  | missingBox (hcategory : place.resolved.category = .reference) (hvalue : place.value = .null) :
      OwnFault walk place (.noAttribute "NoneType" "value")
  /-- A record does not have a field that is declared of it. -/
  | missingField {view : RecordView} {field : Field} (hcategory : place.resolved.category = .record)
      (hview : walk.view? place.value.classOf = some view) (hfield : field ∈ view.fields)
      (hcontent : place.value.fieldContent? field.name = none) :
      OwnFault walk place (.noAttribute place.value.classOf.fullName field.name)
  /-- Something has more items than can be told. -/
  | tooLong (h : place.value.zeroFails = true) : OwnFault walk place .tooLong
  /-- A hook of a record raised something that is no refusal. -/
  | hook {view : RecordView} {hook : Hook} {record : Value} {fault : Fault}
      (hcategory : place.resolved.category = .record)
      (hview : walk.view? place.value.classOf = some view)
      (hhook : hook ∈ view.hooks) (hraise : (hook.run walk.context record).2 = some (.fault fault)) :
      OwnFault walk place fault

theorem eq_fault_of_under {segment : String} {stop : Stop} {fault : Fault}
    (h : .fault fault = stop.under segment) : stop = .fault fault := by
  cases stop with
  | failed failure => cases h
  | fault cause =>
      cases h
      rfl

theorem checkLengthTokens_eq_fault {value : Value} {key : String} {tokens : List String}
    {remaining : RuleSet} {fault : Fault}
    (h : RuleSet.checkLengthTokens value key tokens remaining = .error (.fault fault)) :
    value.lengthOrFault = .error fault := by
  induction tokens generalizing remaining with
  | nil => simp [RuleSet.checkLengthTokens] at h
  | cons token tokens ih =>
      simp only [RuleSet.checkLengthTokens, bind, Except.bind] at h
      split at h
      · rename_i stop hsplit
        cases h
        exact absurd hsplit (Comparison.splitOrStop_ne_fault _ _ _)
      · split at h
        · exact ih h
        · split at h
          · simp [Stop.refuse] at h
          · split at h
            · rename_i stop hstop
              cases h
              exact Comparison.lengthStop_eq_fault hstop
            · exact ih h

theorem missingStop_ne_fault (rules : RuleSet) (key : String) (fault : Fault) :
    rules.missingStop key ≠ some (.fault fault) := by
  have hcomparison : ∀ tokens, RuleSet.hasComparison key tokens ≠ .error (.fault fault) := by
    intro tokens
    induction tokens with
    | nil => simp [RuleSet.hasComparison]
    | cons token tokens ih =>
        simp only [RuleSet.hasComparison, bind, Except.bind]
        split
        · rename_i stop hsplit
          intro h
          cases h
          exact Comparison.splitOrStop_ne_fault _ _ _ hsplit
        · split
          · simp [pure, Except.pure]
          · exact ih
  unfold RuleSet.missingStop
  split
  · simp [Stop.refuse]
  · split
    · rename_i stop hstop
      intro h
      cases h
      exact hcomparison _ hstop
    · simp [Stop.refuse]
    · simp

section

variable {walk : Walk} {levels : Nat} {place : Place} {fault : Fault}

/-- A fault of a visit is one of a visit that it called for, or one of its own. -/
def Blamed (walk : Walk) (levels : Nat) (place : Place) (fault : Fault) : Prop :=
  (∃ next, walk.Calls levels place next ∧ (walk.visitAt levels next).stop = some (.fault fault)) ∨
    walk.OwnFault place fault

theorem blamed_of_optional (hcategory : place.resolved.category = .optional)
    (h : (Visit.optional (walk.visit levels) place.writable place.resolved place.value
      place.rules).stop = some (.fault fault)) : walk.Blamed levels place fault := by
  unfold Visit.optional at h
  split at h
  · simp only [Visit.missing] at h
    split at h <;> simp [Stop.refuse] at h
  · rename_i hnull
    exact .inl ⟨_, .present hcategory (by simpa using hnull), h⟩

theorem blamed_of_reference (hcategory : place.resolved.category = .reference)
    (h : (Visit.reference (walk.visit levels) place.resolved place.value place.rules).stop =
      some (.fault fault)) : walk.Blamed levels place fault := by
  unfold Visit.reference at h
  split at h
  · split at h <;> simp [Visit.refuse, Visit.halt, Visit.pass, Stop.refuse] at h
  · rename_i content hnull hvalue
    exact .inl ⟨_, .content hcategory hvalue (Value.isNull_of_ne_null hnull), h⟩
  · rename_i hbox
    by_cases hnull : place.value.isNull = true
    · have hvalue := Value.eq_null_of_isNull hnull
      rw [hvalue] at h
      cases h
      exact .inr (.missingBox hcategory hvalue)
    · obtain ⟨content, hcontent⟩ := Value.box_of_resolve (by simpa using hnull) hcategory
      exact absurd hcontent (hbox content)

theorem blamed_of_sequence (hcategory : place.resolved.category = .list)
    (h : (Visit.sequence (walk.visit levels) place.writable place.resolved place.value
      place.rules).stop = some (.fault fault)) : walk.Blamed levels place fault := by
  generalize hfault : Stop.fault fault = stop at h
  cases Visit.sequence_stopped h with
  | missing hmissing =>
      subst hfault
      exact absurd hmissing (missingStop_ne_fault _ _ _)
  | length hnull hlength =>
      subst hfault
      have hfault := checkLengthTokens_eq_fault hlength
      unfold Value.lengthOrFault at hfault
      split at hfault
      · rename_i hoversized
        cases hfault
        exact .inr (.tooLong (Value.zeroFails_of_isOversized hnull hcategory hoversized))
      · obtain ⟨n, hn⟩ := Value.length_of_list hnull hcategory
        rw [hn] at hfault
        cases hfault
  | oversized hnull hoversized =>
      cases hfault
      exact .inr (.tooLong (Value.zeroFails_of_isOversized hnull hcategory hoversized))
  | notIterable hnull hitems =>
      obtain ⟨items, hsome⟩ := Value.exists_items_of_list hnull hcategory
      cases hitems.symm.trans hsome
  | item hnull hremaining hitems hitem hstop hbefore =>
      rw [eq_fault_of_under hfault] at hstop
      exact .inl ⟨_, .item hcategory hnull hremaining hitems hitem hbefore, hstop⟩

theorem blamed_of_mapping (hcategory : place.resolved.category = .map)
    (h : (Visit.mapping (walk.visit levels) place.resolved place.value place.rules).stop =
      some (.fault fault)) : walk.Blamed levels place fault := by
  generalize hfault : Stop.fault fault = stop at h
  cases Visit.mapping_stopped h with
  | missing hmissing =>
      subst hfault
      exact absurd hmissing (missingStop_ne_fault _ _ _)
  | length hnull hlength =>
      subst hfault
      obtain ⟨kind, derived, entries, hvalue⟩ := Value.mapping_of_resolve hnull hcategory
      have hfault := checkLengthTokens_eq_fault hlength
      simp [hvalue, Value.lengthOrFault, Value.isOversized, Value.length?] at hfault
  | noEntries hnull hother =>
      obtain ⟨kind, derived, entries, hvalue⟩ := Value.mapping_of_resolve hnull hcategory
      exact absurd hvalue (hother _ _ _)
  | entry hremaining hvalue hentry hstop hbefore =>
      rw [eq_fault_of_under hfault] at hstop
      exact .inl ⟨_, .entry hcategory hremaining hvalue hentry hbefore, hstop⟩

theorem blamed_of_hook {view : RecordView} {method : Option Hook}
    {called : Option Value} {record : Value} (hcategory : place.resolved.category = .record)
    (hview : walk.view? place.value.classOf = some view)
    (hmethod : view.selfHook = method ∨ view.contextHook = method)
    (h : (Visit.hook view.typeName called walk.context method record).stop =
      some (.fault fault)) : walk.Blamed levels place fault := by
  cases method with
  | none => simp [Visit.hook, Visit.pass] at h
  | some hook => exact .inr (.hook hcategory hview (RecordView.mem_hooks.2 hmethod) h)

theorem blamed_of_record (hviews : ∀ base : Class, base.isRecord = true →
      ∃ view, walk.view? base = some view) (hcategory : place.resolved.category = .record)
    (h : (Visit.record (walk.visit levels) walk.tokenize walk.tagKey walk.context walk.view?
      place.writable place.value place.rules).stop = some (.fault fault)) :
    walk.Blamed levels place fault := by
  generalize hfault : Stop.fault fault = stop at h
  cases Visit.record_stopped h with
  | missing | unknownField => cases hfault
  | zeroFails _ hfails =>
      cases hfault
      exact .inr (.tooLong hfails)
  | notRecord hnull hview =>
      have hrecord : place.value.classOf.isRecord = true := by
        rcases Value.record_of_resolve hnull hcategory with ⟨_, hv⟩ | ⟨_, _, hv⟩ <;>
          simp [hv, Value.classOf, Class.isRecord]
      obtain ⟨view, hfound⟩ := hviews _ hrecord
      cases hview.symm.trans hfound
  | @missingField view before rest field rules _ hview hplan hbefore hcontent =>
      cases hfault
      have hmem : .descend field rules ∈ RecordStep.all walk.tokenize view.fields place.rules := by
        rw [hplan]
        simp
      rw [Visit.classOf_of_steps hbefore]
      exact .inr (.missingField hcategory hview (RecordStep.of_descend_mem_all hmem).1
        (Visit.missing_of_steps hbefore hcontent))
  | field hnull hview hplan hbefore hcontent hstop =>
      rw [eq_fault_of_under hfault] at hstop
      exact .inl ⟨_, .field hcategory hnull hview hplan hbefore hcontent, hstop⟩
  | hook hview hmethod hhook =>
      subst hfault
      exact blamed_of_hook hcategory hview hmethod hhook

end

/-- The last place of a walk that ends in a fault: no levels are left, or the fault is its own. -/
theorem reaches_of_fault {walk : Walk} (hregistry : walk.evaluator? = Registry.standard.get?)
    (hviews : ∀ base : Class, base.isRecord = true → ∃ view, walk.view? base = some view)
    {levels : Nat} {place : Place} {fault : Fault}
    (h : (walk.visitAt levels place).stop = some (.fault fault)) :
    ∃ rest last, walk.Reaches levels place rest last ∧
      (rest = 0 ∧ fault = .tooDeep ∨ walk.OwnFault last fault) := by
  induction levels generalizing place with
  | zero =>
      cases h
      exact ⟨0, place, .here 0 place, .inl ⟨rfl, rfl⟩⟩
  | succ levels ih =>
      have hblamed : walk.Blamed levels place fault := by
        simp only [visitAt, Walk.visit] at h
        split at h
        · simp [Visit.pass] at h
        · rename_i evaluator hevaluator
          rw [hregistry] at hevaluator
          have hcategory := (Registry.category_of_standard hevaluator).symm
          cases evaluator with
          | optional => exact blamed_of_optional hcategory h
          | reference => exact blamed_of_reference hcategory h
          | scalar kind =>
              obtain ⟨token, htoken, hescapes⟩ :=
                ScalarKind.visit_eq_fault (ScalarKind.suits_of_resolve hcategory) h
              exact .inr (.token hcategory htoken hescapes)
          | record => exact blamed_of_record hviews hcategory h
          | sequence => exact blamed_of_sequence hcategory h
          | mapping => exact blamed_of_mapping hcategory h
      rcases hblamed with ⟨next, hcall, hstop⟩ | hown
      · obtain ⟨rest, last, hreach, hlast⟩ := ih hstop
        exact ⟨rest, last, .call hcall hreach, hlast⟩
      · exact ⟨levels + 1, place, .here _ _, .inr hown⟩

end Walk

end RuleCheck
