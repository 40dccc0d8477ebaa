import RuleCheck.Proofs.Value.Depth
import RuleCheck.Proofs.Visit.Shallow
import RuleCheck.Proofs.Walk.Calls
import RuleCheck.Proofs.Walk.Views

/-! # The visits that a visit calls for

Whichever evaluator serves the category of a place, these are the places that its visit goes on to.  A walk
goes too deep at one of them or not at all, and what visits leave when they pass is no deeper than what
they found, as long as no hook assigns a field.
-/

namespace RuleCheck.Walk

/-- A visit to the first place, with so many levels below it, goes on to the second one. -/
inductive Dispatches (walk : Walk) (levels : Nat) (place : Place) : Place → Prop
  /-- The value itself, with what is declared of it if it is there. -/
  | present (hserved : walk.evaluator? place.resolved.category = some .optional)
      (hnull : place.value.isNull = false) :
      Dispatches walk levels place { place with declared := place.resolved.element }
  | content {content : Value} (hserved : walk.evaluator? place.resolved.category = some .reference)
      (hvalue : place.value = .box content) (hnull : content.isNull = false) :
      Dispatches walk levels place ⟨true, place.resolved.element, content, place.rules⟩
  | item {remaining : RuleSet} {items : List Value} {index : Nat} {item : Value}
      (hserved : walk.evaluator? place.resolved.category = some .sequence)
      (hremaining : place.rules.checkLength place.value Visit.sequenceKey = .ok remaining)
      (hitems : place.value.items? = some items) (hitem : items[index]? = some item)
      (hbefore : ∀ (i : Nat) other, i < index → items[i]? = some other →
        (walk.visit levels (place.value.itemsWritable place.writable) (place.resolved.item i) other
          remaining).stop = none) :
      Dispatches walk levels place
        ⟨place.value.itemsWritable place.writable, place.resolved.item index, item, remaining⟩
  | entry {remaining : RuleSet} {kind : MappingKind} {derived : Option String}
      {entries : List (Value × Value)} {index : Nat} {key item : Value}
      (hserved : walk.evaluator? place.resolved.category = some .mapping)
      (hremaining : place.rules.checkLength place.value Visit.mappingKey = .ok remaining)
      (hvalue : place.value = .mapping kind derived entries)
      (hentry : entries[index]? = some (key, item))
      (hbefore : ∀ (i : Nat) other, i < index → entries[i]? = some other →
        (walk.visit levels kind.isMutable place.resolved.element other.2 remaining).stop = none) :
      Dispatches walk levels place ⟨kind.isMutable, place.resolved.element, item, remaining⟩
  /-- A field as the steps before it left it. -/
  | field {view : RecordView} {before rest : List RecordStep} {field : Field} {rules : RuleSet}
      {content : Value} (hserved : walk.evaluator? place.resolved.category = some .record)
      (hview : walk.view? place.value.classOf = some view)
      (hplan : RecordStep.all walk.tokenize view.fields place.rules =
        before ++ .descend field rules :: rest)
      (hbefore : (Visit.steps (walk.visit levels) walk.tagKey view.typeName place.writable before
        place.value).stop = none)
      (hcontent : (Visit.steps (walk.visit levels) walk.tagKey view.typeName place.writable before
        place.value).value.fieldContent? field.name = some content) :
      Dispatches walk levels place
        ⟨(Visit.steps (walk.visit levels) walk.tagKey view.typeName place.writable before
          place.value).value.isMutable || place.writable, field.declared, content, rules⟩

variable {walk : Walk} {levels : Nat} {place : Place}

/-! ## Where a walk goes too deep -/

/-- A visit that calls for another one that goes too deep. -/
def LeadsTooDeep (walk : Walk) (levels : Nat) (place : Place) : Prop :=
  ∃ next, walk.Dispatches levels place next ∧
    (walk.visitAt levels next).stop = some (.fault .tooDeep)

theorem tooDeep_of_optional (hserved : walk.evaluator? place.resolved.category = some .optional)
    (h : (Visit.optional (walk.visit levels) place.writable place.resolved place.value
      place.rules).stop = some (.fault .tooDeep)) : walk.LeadsTooDeep levels place := by
  unfold Visit.optional at h
  split at h
  · simp only [Visit.missing] at h
    split at h <;> simp [Stop.refuse] at h
  · rename_i hnull
    exact ⟨_, .present hserved (by simpa using hnull), h⟩

theorem tooDeep_of_reference (hserved : walk.evaluator? place.resolved.category = some .reference)
    (h : (Visit.reference (walk.visit levels) place.resolved place.value place.rules).stop =
      some (.fault .tooDeep)) : walk.LeadsTooDeep levels place := by
  unfold Visit.reference at h
  split at h
  · split at h <;> simp [Visit.refuse, Visit.halt, Visit.pass, Stop.refuse] at h
  · rename_i content hnull hvalue
    exact ⟨_, .content hserved hvalue (Value.isNull_of_ne_null hnull), h⟩
  · simp [Visit.abort, Visit.halt] at h

theorem checkLength_ne_tooDeep (rules : RuleSet) (value : Value) (key : String) :
    rules.checkLength value key ≠ .error (.fault .tooDeep) :=
  fun h => value.lengthOrFault_ne_tooDeep (checkLengthTokens_eq_fault h)

theorem tooDeep_of_sequence (hserved : walk.evaluator? place.resolved.category = some .sequence)
    (h : (Visit.sequence (walk.visit levels) place.writable place.resolved place.value
      place.rules).stop = some (.fault .tooDeep)) : walk.LeadsTooDeep levels place := by
  generalize hfault : Stop.fault .tooDeep = stop at h
  cases Visit.sequence_stopped h with
  | missing hmissing =>
      subst hfault
      exact absurd hmissing (missingStop_ne_fault _ _ _)
  | length _ hlength =>
      subst hfault
      exact absurd hlength (checkLength_ne_tooDeep _ _ _)
  | oversized | notIterable => cases hfault
  | item _ hremaining hitems hitem hstop hbefore =>
      rw [eq_fault_of_under hfault] at hstop
      exact ⟨_, .item hserved hremaining hitems hitem hbefore, hstop⟩

theorem tooDeep_of_mapping (hserved : walk.evaluator? place.resolved.category = some .mapping)
    (h : (Visit.mapping (walk.visit levels) place.resolved place.value place.rules).stop =
      some (.fault .tooDeep)) : walk.LeadsTooDeep levels place := by
  generalize hfault : Stop.fault .tooDeep = stop at h
  cases Visit.mapping_stopped h with
  | missing hmissing =>
      subst hfault
      exact absurd hmissing (missingStop_ne_fault _ _ _)
  | length _ hlength =>
      subst hfault
      exact absurd hlength (checkLength_ne_tooDeep _ _ _)
  | noEntries => cases hfault
  | entry hremaining hvalue hentry hstop hbefore =>
      rw [eq_fault_of_under hfault] at hstop
      exact ⟨_, .entry hserved hremaining hvalue hentry hbefore, hstop⟩

theorem tooDeep_of_record (hserved : walk.evaluator? place.resolved.category = some .record)
    (h : (Visit.record (walk.visit levels) walk.tokenize walk.tagKey walk.context walk.view?
      place.writable place.value place.rules).stop = some (.fault .tooDeep)) :
    walk.LeadsTooDeep levels place := by
  generalize hfault : Stop.fault .tooDeep = stop at h
  cases Visit.record_stopped h with
  | missing | zeroFails | notRecord | unknownField | missingField => cases hfault
  | field _ hview hplan hbefore hcontent hstop =>
      rw [eq_fault_of_under hfault] at hstop
      exact ⟨_, .field hserved hview hplan hbefore hcontent, hstop⟩
  | hook _ _ hhook =>
      subst hfault
      exact absurd hhook (Visit.hook_ne_tooDeep _ _ _ _ _)

/-- A visit with levels below it goes too deep only where a visit that it calls for does. -/
theorem leadsTooDeep (h : (walk.visitAt (levels + 1) place).stop = some (.fault .tooDeep)) :
    walk.LeadsTooDeep levels place := by
  unfold visitAt visit at h
  simp only at h
  split at h
  · cases h
  · rename_i evaluator hserved
    cases evaluator with
    | optional => exact tooDeep_of_optional hserved h
    | reference => exact tooDeep_of_reference hserved h
    | scalar kind => exact absurd h (kind.visit_ne_tooDeep _ _ _)
    | record => exact tooDeep_of_record hserved h
    | sequence => exact tooDeep_of_sequence hserved h
    | mapping => exact tooDeep_of_mapping hserved h

/-! ## Depth is not gained -/

/-- Visits to what is inside that leave nothing deeper than what they found. -/
def NoDeeper (descend : Bool → Annotation → Value → RuleSet → Visit) : Prop :=
  ∀ writable declared value rules, (descend writable declared value rules).stop = none →
    (descend writable declared value rules).value.depth ≤ value.depth

section

variable {descend : Bool → Annotation → Value → RuleSet → Visit} (hdescend : NoDeeper descend)

theorem scalar_depth_le {kind : ScalarKind} {writable : Bool} {value : Value} {rules : RuleSet}
    (hpass : (kind.visit writable value rules).stop = none) :
    (kind.visit writable value rules).value.depth ≤ value.depth := by
  obtain ⟨settled, hsettle, -, ⟨-, hvalue, -⟩ | ⟨hchanged, -, hvalue, -⟩⟩ :=
    ScalarKind.visit_passed hpass
  · exact Nat.le_of_eq (congrArg Value.depth hvalue)
  · obtain ⟨folded, default, h⟩ := ScalarKind.settle_eq_ok hsettle
    obtain ⟨content, hcontent, -⟩ := h.written hchanged
    rw [hvalue, hcontent]
    exact value.depth_pos

theorem missing_depth_le {value : Value} (hnull : value.isNull = true) (stop : Option Stop) :
    (Visit.missing stop).value.depth ≤ value.depth := by
  cases value <;> cases hnull
  exact Nat.le_refl _

include hdescend

theorem optional_depth_le {writable : Bool} {resolved : Resolved} {value : Value} {rules : RuleSet}
    (hpass : (Visit.optional descend writable resolved value rules).stop = none) :
    (Visit.optional descend writable resolved value rules).value.depth ≤ value.depth := by
  unfold Visit.optional at hpass ⊢
  split at hpass
  · rename_i hnull
    simp only [hnull, if_true]
    exact missing_depth_le hnull _
  · rename_i hnull
    simp only [hnull]
    exact hdescend _ _ _ _ hpass

theorem reference_depth_le {resolved : Resolved} {value : Value} {rules : RuleSet}
    (hpass : (Visit.reference descend resolved value rules).stop = none) :
    (Visit.reference descend resolved value rules).value.depth ≤ value.depth := by
  unfold Visit.reference at hpass ⊢
  split at hpass
  · split <;> exact Nat.le_refl _
  · have := hdescend _ _ _ _ hpass
    simp only [Value.depth]
    omega
  · simp [Visit.abort, Visit.halt] at hpass

theorem sequence_depth_le {writable : Bool} {resolved : Resolved} {value : Value} {rules : RuleSet}
    (hpass : (Visit.sequence descend writable resolved value rules).stop = none) :
    (Visit.sequence descend writable resolved value rules).value.depth ≤ value.depth := by
  cases hnull : value.isNull with
  | true =>
      unfold Visit.sequence
      simp only [hnull, if_true]
      exact missing_depth_le hnull _
  | false =>
      obtain ⟨remaining, items, -, -, hitems, hvisit⟩ := Visit.sequence_passed hnull hpass
      rw [hvisit, Visit.ofItems_stop] at hpass
      have heach := (Visits.ofItems_passed hpass).mono
        (S := fun _ _ old new => new.depth ≤ old.depth) fun own index item new _ h => by
          obtain ⟨hstop, -, rfl⟩ := h
          exact hdescend _ _ _ _ hstop
      rw [hvisit, Visit.ofItems_value]
      exact Value.depth_rebuild_le hitems (Value.itemsDepth_each heach) _

theorem mapping_depth_le {resolved : Resolved} {value : Value} {rules : RuleSet}
    (hpass : (Visit.mapping descend resolved value rules).stop = none) :
    (Visit.mapping descend resolved value rules).value.depth ≤ value.depth := by
  cases hnull : value.isNull with
  | true =>
      unfold Visit.mapping
      simp only [hnull, if_true]
      exact missing_depth_le hnull _
  | false =>
      obtain ⟨remaining, kind, derived, entries, -, rfl, hvisit⟩ := Visit.mapping_passed hnull hpass
      rw [hvisit] at hpass ⊢
      have heach := (Visits.ofEntries_passed 0 hpass).mono
        (S := fun _ _ old new => new.depth ≤ old.depth) fun own index item new _ h => by
          obtain ⟨hstop, -, rfl⟩ := h
          exact hdescend _ _ _ _ hstop
      have := Value.entriesDepth_zipWith_le heach
      simp only [Value.withEntries, Value.depth]
      omega

theorem steps_depth_le {tagKey typeName : String} {writable : Bool} {plan : List RecordStep}
    {record : Value}
    (hpass : (Visit.steps descend tagKey typeName writable plan record).stop = none) :
    (Visit.steps descend tagKey typeName writable plan record).value.depth ≤ record.depth := by
  refine Visit.steps_induction (P := fun _ value => value.depth ≤ record.depth) false
    (Nat.le_refl _) ?_ hpass
  intro field rules replaced value content _ hkept hcontent hstop
  exact Nat.le_trans (Value.depth_withField_le hcontent (hdescend _ _ _ _ hstop)) hkept

theorem record_depth_le (hassign : walk.AssignsNothing) {writable : Bool} {value : Value}
    {rules : RuleSet}
    (hpass : (Visit.record descend walk.tokenize walk.tagKey walk.context walk.view? writable value
      rules).stop = none) :
    (Visit.record descend walk.tokenize walk.tagKey walk.context walk.view? writable value
      rules).value.depth ≤ value.depth := by
  cases hnull : value.isNull with
  | true =>
      unfold Visit.record
      simp only [hnull, if_true]
      exact value.depth_pos
  | false =>
      obtain ⟨-, view, hview, hvisit⟩ := Visit.record_passed hnull hpass
      rw [hvisit, Visit.after_stop] at hpass
      obtain ⟨hsteps, hhooks, hvalue, -⟩ := Visit.andThen_passed hpass
      rw [hvisit, Visit.after_value, Visit.presentRecord, hvalue,
        (hooks_of_assignsNothing hassign hview hhooks).1]
      exact steps_depth_le hdescend hsteps

end

theorem visit_noDeeper (hassign : walk.AssignsNothing) (levels : Nat) :
    NoDeeper (walk.visit levels) := by
  induction levels with
  | zero =>
      intro writable declared value rules hpass
      cases hpass
  | succ levels ih =>
      intro writable declared value rules hpass
      unfold visit at hpass ⊢
      simp only at hpass ⊢
      cases hserved : walk.evaluator? (value.resolve declared).category with
      | none => exact Nat.le_refl _
      | some evaluator =>
          simp only [hserved] at hpass
          cases evaluator with
          | optional => exact optional_depth_le ih hpass
          | reference => exact reference_depth_le ih hpass
          | scalar kind => exact scalar_depth_le hpass
          | record => exact record_depth_le ih hassign hpass
          | sequence => exact sequence_depth_le ih hpass
          | mapping => exact mapping_depth_le ih hpass

end RuleCheck.Walk
