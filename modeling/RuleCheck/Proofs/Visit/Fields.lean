import RuleCheck.Proofs.Value.Fields
import RuleCheck.Proofs.Visit.Passing

/-! # The fields of a record after a visit

The declared fields of a record are visited one after another.  As their names differ, what the last visit
to a field left is what the record holds at the end.
-/

namespace RuleCheck.Visit

variable {descend : Bool → Annotation → Value → RuleSet → Visit} {tagKey typeName : String}
  {writable : Bool}

theorem steps_append (plan rest : List RecordStep) (record : Value) :
    steps descend tagKey typeName writable (plan ++ rest) record =
      (steps descend tagKey typeName writable plan record).andThen
        (steps descend tagKey typeName writable rest) := by
  induction plan generalizing record with
  | nil => simp [steps]
  | cons first plan ih =>
      simp only [List.cons_append, steps, andThen_assoc]
      congr
      funext value
      exact ih value

theorem fieldContent?_of_steps {plan : List RecordStep} {record : Value} {name : String}
    (hother : ∀ field rules, .descend field rules ∈ plan → field.name ≠ name)
    (hpass : (steps descend tagKey typeName writable plan record).stop = none) :
    (steps descend tagKey typeName writable plan record).value.fieldContent? name =
      record.fieldContent? name := by
  refine steps_induction (P := fun _ value =>
    value.fieldContent? name = record.fieldContent? name) false rfl ?_ hpass
  intro field rules replaced value content hmem h _ _
  rw [Value.fieldContent?_withField_of_ne _ _ (Ne.symm (hother field rules hmem)), h]

theorem classOf_of_steps {plan : List RecordStep} {record : Value}
    (hpass : (steps descend tagKey typeName writable plan record).stop = none) :
    (steps descend tagKey typeName writable plan record).value.classOf = record.classOf := by
  refine steps_induction (P := fun _ value => value.classOf = record.classOf) false rfl ?_ hpass
  intro field rules replaced value content _ h _ _
  rw [Value.classOf_withField, h]

theorem missing_of_steps {plan : List RecordStep} {record : Value} {name : String}
    (hpass : (steps descend tagKey typeName writable plan record).stop = none)
    (h : (steps descend tagKey typeName writable plan record).value.fieldContent? name = none) :
    record.fieldContent? name = none := by
  refine steps_induction (P := fun _ value => value.fieldContent? name = none →
    record.fieldContent? name = none) false id ?_ hpass h
  intro field rules replaced value content _ ih _ _ hnone
  exact ih (Value.fieldContent?_withField_eq_none hnone)

theorem isMutable_of_steps {plan : List RecordStep} {record : Value}
    (hpass : (steps descend tagKey typeName writable plan record).stop = none) :
    (steps descend tagKey typeName writable plan record).value.isMutable = record.isMutable := by
  refine steps_induction (P := fun _ value => value.isMutable = record.isMutable) false rfl ?_ hpass
  intro field rules replaced value content _ h _ _
  rw [Value.isMutable_withField, h]

theorem unreplaced_of_isMutable {plan : List RecordStep} {record : Value}
    (hmutable : record.isMutable = true)
    (hpass : (steps descend tagKey typeName writable plan record).stop = none) :
    (steps descend tagKey typeName writable plan record).replaced = false := by
  have h := steps_induction (P := fun replaced value => replaced = false ∧ value.isMutable = true)
    false ⟨rfl, hmutable⟩ ?_ hpass
  · simpa using h.1
  · intro field rules replaced value content _ h _ _
    rw [Value.isMutable_withField, h.1, h.2]
    exact ⟨rfl, rfl⟩

theorem mem_of_descend_mem {tokenize : String → RuleSet} {fields : List Field}
    {rules own : RuleSet} {field : Field}
    (h : .descend field own ∈ fields.flatMap (RecordStep.ofField tokenize rules)) :
    field ∈ fields := by
  have hall : .descend field own ∈ RecordStep.all tokenize fields rules := by
    simp [RecordStep.all, h]
  exact (RecordStep.of_descend_mem_all hall).1

theorem step_passed {record : Value} {field : Field} {own : RuleSet}
    (hpass : (step descend tagKey typeName writable record (.descend field own)).stop = none) :
    ∃ content, record.fieldContent? field.name = some content ∧
      (descend (record.isMutable || writable) field.declared content own).stop = none ∧
      (step descend tagKey typeName writable record (.descend field own)).value =
        record.withField field.name
          (descend (record.isMutable || writable) field.declared content own).value ∧
      (step descend tagKey typeName writable record (.descend field own)).replaced =
        (!record.isMutable &&
          (descend (record.isMutable || writable) field.declared content own).replaced) := by
  simp only [step, Visit.field] at hpass ⊢
  cases hcontent : record.fieldContent? field.name with
  | none => simp [hcontent, abort, halt] at hpass
  | some content =>
      simp only [hcontent, Option.map_eq_none_iff] at hpass
      exact ⟨content, rfl, hpass, rfl, rfl⟩

/-- Reading the rules of a field changes nothing, so the step after it decides. -/
theorem steps_pair {record : Value} {text : String} {last : RecordStep}
    (hpass : (steps descend tagKey typeName writable [.readRules text, last] record).stop = none) :
    (step descend tagKey typeName writable record last).stop = none ∧
      (steps descend tagKey typeName writable [.readRules text, last] record).value =
        (step descend tagKey typeName writable record last).value ∧
      (steps descend tagKey typeName writable [.readRules text, last] record).replaced =
        (step descend tagKey typeName writable record last).replaced := by
  obtain ⟨-, hrest, hvalue, hreplaced⟩ := andThen_passed hpass
  obtain ⟨hlast, -, hlastValue, hlastReplaced⟩ := andThen_passed hrest
  refine ⟨hlast, hvalue.trans hlastValue, hreplaced.trans ?_⟩
  simp only [steps, pass, Bool.or_false] at hlastReplaced ⊢
  exact hlastReplaced

theorem ofField_eq_append {tokenize : String → RuleSet} {field : Field} (rules : RuleSet)
    (hincluded : (tokenize field.rules).excluded = false) :
    ∃ before, RecordStep.ofField tokenize rules field =
        before ++ [.descend field (tokenize field.rules)] ∧
      ((tokenize field.rules).has RuleSet.mainToken = false →
        before = [.readRules field.rules]) := by
  unfold RecordStep.ofField
  simp only [hincluded, Bool.false_eq_true, if_false]
  split
  · rename_i hmain
    exact ⟨[.readRules field.rules, .descend field (RecordStep.forwarded rules)], rfl,
      fun h => absurd (h.symm.trans hmain) (by simp)⟩
  · exact ⟨[.readRules field.rules], rfl, fun _ => rfl⟩

section

variable {tokenize : String → RuleSet} {rules : RuleSet} {fields : List Field}

/-- What the own rules of a declared field were last applied to is what the record holds at the end. -/
theorem last_visit_of_steps (hdistinct : (fields.map Field.name).Nodup) {record : Value}
    (hpass : (steps descend tagKey typeName writable
      (fields.flatMap (RecordStep.ofField tokenize rules)) record).stop = none)
    {field : Field} (hfield : field ∈ fields)
    (hincluded : (tokenize field.rules).excluded = false) :
    ∃ content,
      (descend (record.isMutable || writable) field.declared content
        (tokenize field.rules)).stop = none ∧
      (steps descend tagKey typeName writable
        (fields.flatMap (RecordStep.ofField tokenize rules)) record).value.fieldContent? field.name =
        some (descend (record.isMutable || writable) field.declared content
          (tokenize field.rules)).value := by
  induction fields generalizing record with
  | nil => simp at hfield
  | cons first rest ih =>
      simp only [List.map_cons, List.nodup_cons, List.mem_map, not_exists, not_and] at hdistinct
      obtain ⟨hfirst, hrest⟩ := hdistinct
      simp only [List.flatMap_cons, steps_append] at hpass ⊢
      obtain ⟨hown, hlater, hvalue, -⟩ := andThen_passed hpass
      rw [hvalue]
      rcases List.mem_cons.1 hfield with rfl | hfield
      · obtain ⟨before, hplan, -⟩ := ofField_eq_append rules hincluded
        rw [fieldContent?_of_steps (fun other own hmem => hfirst other (mem_of_descend_mem hmem))
          hlater]
        rw [hplan, steps_append] at hown ⊢
        obtain ⟨hbefore, hlast, hlastValue, -⟩ := andThen_passed hown
        obtain ⟨hstep, -, hstepValue, -⟩ := andThen_passed hlast
        obtain ⟨content, hcontent, hinner, hleft, -⟩ := step_passed hstep
        rw [isMutable_of_steps hbefore] at hinner hleft
        refine ⟨content, hinner, ?_⟩
        rw [hlastValue]
        simp only [steps] at hstepValue ⊢
        rw [hstepValue]
        simp only [pass]
        rw [hleft]
        exact Value.fieldContent?_withField_self _ hcontent
      · rw [← isMutable_of_steps hown]
        exact ih hrest hlater hfield

/-- Redirected rules come first, so the own rules of a field have the last word. -/
theorem last_visit_of_all (hdistinct : (fields.map Field.name).Nodup) {record : Value}
    (hpass : (steps descend tagKey typeName writable (RecordStep.all tokenize fields rules)
      record).stop = none)
    {field : Field} (hfield : field ∈ fields)
    (hincluded : (tokenize field.rules).excluded = false) :
    ∃ writable' content,
      (descend writable' field.declared content (tokenize field.rules)).stop = none ∧
      (steps descend tagKey typeName writable (RecordStep.all tokenize fields rules)
        record).value.fieldContent? field.name =
        some (descend writable' field.declared content (tokenize field.rules)).value := by
  unfold RecordStep.all at hpass ⊢
  rw [steps_append] at hpass ⊢
  obtain ⟨-, hrest, hvalue, -⟩ := andThen_passed hpass
  obtain ⟨-, hfields, hfieldsValue, -⟩ := andThen_passed hrest
  obtain ⟨content, hstop, hcontent⟩ := last_visit_of_steps hdistinct hfields hfield hincluded
  refine ⟨_, content, hstop, ?_⟩
  rw [hvalue]
  simp only [steps] at hfieldsValue ⊢
  rw [hfieldsValue]
  exact hcontent

/--
If every field is visited only once, with its own rules, then a fixed record is exchanged only for a field
whose place was written.
-/
theorem unreplaced_of_steps (hdistinct : (fields.map Field.name).Nodup)
    (hmain : ∀ field ∈ fields, (tokenize field.rules).has RuleSet.mainToken = false)
    {record : Value} (hfixed : record.isMutable = false)
    (hpass : (steps descend tagKey typeName writable
      (fields.flatMap (RecordStep.ofField tokenize rules)) record).stop = none)
    (hown : ∀ field ∈ fields, ∀ content, record.fieldContent? field.name = some content →
      (descend writable field.declared content (tokenize field.rules)).stop = none →
      (steps descend tagKey typeName writable
        (fields.flatMap (RecordStep.ofField tokenize rules)) record).value.fieldContent? field.name =
          some (descend writable field.declared content (tokenize field.rules)).value →
      (descend writable field.declared content (tokenize field.rules)).replaced = false) :
    (steps descend tagKey typeName writable
      (fields.flatMap (RecordStep.ofField tokenize rules)) record).replaced = false := by
  induction fields generalizing record with
  | nil => rfl
  | cons first rest ih =>
      simp only [List.map_cons, List.nodup_cons, List.mem_map, not_exists, not_and] at hdistinct
      obtain ⟨hfirst, hrest⟩ := hdistinct
      simp only [List.flatMap_cons, steps_append] at hpass hown ⊢
      obtain ⟨hhead, hlater, hvalue, hreplaced⟩ := andThen_passed hpass
      rw [hvalue] at hown
      rw [hreplaced]
      cases hincluded : (tokenize first.rules).excluded with
      | true =>
          have hsame : steps descend tagKey typeName writable
              (RecordStep.ofField tokenize rules first) record =
              ⟨record, false, [.rulesRead first.rules], none⟩ := by
            simp [RecordStep.ofField, hincluded, steps, step, pass, after, andThen]
          rw [hsame] at hlater hown ⊢
          exact ih hrest (fun field hfield => hmain field (by simp [hfield])) hfixed hlater
            fun field hfield => hown field (by simp [hfield])
      | false =>
          obtain ⟨before, hplan, hbefore⟩ := ofField_eq_append rules hincluded
          rw [hbefore (hmain first (by simp)), List.singleton_append] at hplan
          rw [hplan] at hhead hlater hown ⊢
          obtain ⟨hstep, hstepValue, hstepReplaced⟩ := steps_pair hhead
          obtain ⟨content, hcontent, hinner, hleft, hwrote⟩ := step_passed hstep
          simp only [hfixed, Bool.false_or, Bool.not_false, Bool.true_and] at hinner hleft hwrote
          rw [hleft] at hstepValue
          rw [hwrote] at hstepReplaced
          rw [hstepValue] at hlater hown ⊢
          rw [hstepReplaced]
          have hother (field : Field) (hfield : field ∈ rest) (new : Value) :
              (record.withField first.name new).fieldContent? field.name =
                record.fieldContent? field.name :=
            Value.fieldContent?_withField_of_ne _ _ (hfirst field hfield)
          have hwritten := hown first (by simp) content hcontent hinner
          rw [fieldContent?_of_steps (fun other own hmem => hfirst other (mem_of_descend_mem hmem))
            hlater] at hwritten
          rw [hwritten (Value.fieldContent?_withField_self _ hcontent), Bool.false_or]
          refine ih hrest (fun field hfield => hmain field (by simp [hfield])) ?_ hlater ?_
          · rw [Value.isMutable_withField, hfixed]
          · intro field hfield content hcontent
            rw [hother field hfield] at hcontent
            exact hown field (by simp [hfield]) content hcontent

end

end RuleCheck.Visit
