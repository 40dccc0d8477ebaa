import RuleCheck.Proofs.Walk.SpotVisits

/-! # Boxes in a walk

A box keeps its place: what a visit makes of the content goes into the box.  So a value around boxes is rebuilt only
for something else that is written in it.
-/

namespace RuleCheck

theorem Shaped.unwritten_of_box {view? : Class → Option RecordView} {written : Bool} {declared : Annotation}
    {value content new : Value} (h : Shaped view? written declared value new)
    (hvalue : value = .box content) : written = false := by
  induction h with
  | same => rfl
  | scalar hcategory =>
      rcases Value.scalar_of_resolve hcategory with hnull | ⟨_, _, hscalar, -⟩
      · cases hvalue.symm.trans hnull
      · cases hvalue.symm.trans hscalar
  | present _ _ _ ih => exact ih hvalue
  | content | entries | boxField => rfl
  | items hcategory hnull =>
      rcases Value.list_of_resolve hnull hcategory with
        ⟨_, _, _, hlist⟩ | ⟨_, _, _, hlist⟩ | ⟨_, _, hlist, -⟩ <;> cases hvalue.symm.trans hlist
  | fields => cases hvalue

namespace Walk

variable {walk : Walk} {levels : Nat} {place : Place}

/--
The content that a box has in the end is what the visits to the box make of its content, one after another.  Each
of them gives the new content as a function of the old one and the rules.
-/
theorem Made.of_box {declared : Annotation} {value new content : Value} {visits : List (Nat × Place)}
    (h : walk.Made declared value visits new) (hvalue : value = .box content)
    (make : Value → RuleSet → Value)
    (hvisit : ∀ levels writable content rules,
      (levels, ⟨writable, declared, .box content, rules⟩) ∈ visits →
      (walk.visit levels writable declared (.box content) rules).value = .box (make content rules)) :
    new = .box (visits.foldl (fun content visit => make content visit.2.rules) content) := by
  induction h generalizing content with
  | untouched => exact hvalue
  | visited levels writable value rules =>
      subst hvalue
      exact hvisit levels writable content rules (List.mem_singleton_self _)
  | left _ ih =>
      rw [ih hvalue hvisit, hvalue]
      simp only [Value.graft]
  | andThen _ _ ih ihLater =>
      have hfirst := ih hvalue fun levels writable content rules hmem =>
        hvisit levels writable content rules (List.mem_append_left _ hmem)
      rw [List.foldl_append]
      exact ihLater hfirst fun levels writable content rules hmem =>
        hvisit levels writable content rules (List.mem_append_right _ hmem)

/-! ## What is written -/

theorem written_of_items {visit : Place → Visit} (place : Nat → Value → Place) (index : Nat)
    {items : List Value}
    (h : (Visits.ofItems (fun i item => visit (place i item)) index items).replaced = true) :
    ∃ next ∈ reached visit (items.mapIdx fun i => place (index + i)), (visit next).replaced = true := by
  induction items generalizing index with
  | nil => cases h
  | cons item items ih =>
      simp only [Visits.ofItems] at h
      simp only [Visits.mapIdx_cons_from, reached, List.exists_mem_cons_iff]
      cases hstop : (visit (place index item)).stop with
      | some stop =>
          simp only [hstop, Visits.halted] at h
          exact .inl h
      | none =>
          simp only [hstop, Visits.cons, Bool.or_eq_true] at h
          rw [Visit.onward_of_passed hstop]
          exact h.imp_right (ih (index + 1))

theorem written_of_steps {typeName : String} {writable : Bool} {plan : List RecordStep} {record : Value}
    (h : (Visit.steps (walk.visit levels) walk.tagKey typeName writable plan record).replaced = true) :
    ∃ next ∈ walk.stepPlaces levels typeName writable plan record,
      (walk.visitAt levels next).replaced = true := by
  have hstep {step : RecordStep} {record : Value}
      (h : (Visit.step (walk.visit levels) walk.tagKey typeName writable record step).replaced = true) :
      ∃ next ∈ (step.place? writable record).toList, (walk.visitAt levels next).replaced = true := by
    cases step with
    | descend field rules =>
        simp only [Visit.step, Visit.field] at h
        cases hcontent : record.fieldContent? field.name with
        | none =>
            simp only [hcontent] at h
            cases h
        | some content =>
            simp only [hcontent] at h
            simp only [RecordStep.place?, hcontent, Option.map_some, Option.toList_some]
            exact ⟨_, List.mem_singleton_self _, (Bool.and_eq_true_iff.1 h).2⟩
    | readFields | readRules | unknown => cases h
  induction plan generalizing record with
  | nil => cases h
  | cons step plan ih =>
      simp only [Visit.steps, Visit.andThen] at h
      simp only [stepPlaces, List.mem_append, or_and_right, exists_or]
      cases hstop : (Visit.step (walk.visit levels) walk.tagKey typeName writable record step).stop with
      | some stop =>
          simp only [hstop] at h
          exact .inl (hstep h)
      | none =>
          simp only [hstop, Bool.or_eq_true] at h
          rw [Visit.onward_of_passed hstop]
          exact h.imp hstep ih

/-- A place is written for a scalar, or for another place that was written directly below. -/
theorem written_below (h : (walk.visitAt (levels + 1) place).replaced = true) :
    (∃ kind, walk.evaluator? place.resolved.category = some (.scalar kind)) ∨
      ∃ next ∈ walk.placesBelow levels place, (walk.visitAt levels next).replaced = true := by
  cases hserved : walk.evaluator? place.resolved.category with
  | none =>
      rw [visitAt_of_unserved hserved] at h
      cases h
  | some evaluator =>
      rw [visitAt_of_served hserved] at h
      cases evaluator with
      | scalar kind => exact .inl ⟨kind, rfl⟩
      | optional =>
          refine .inr ?_
          simp only [evaluate, Visit.optional] at h
          cases hnull : place.value.isNull with
          | true =>
              simp only [hnull, if_true] at h
              cases h
          | false =>
              simp only [hnull, Bool.false_eq_true, if_false] at h
              simp only [placesBelow, hserved]
              exact ⟨_, Place.mem_present.2 ⟨hnull, rfl⟩, h⟩
      | reference =>
          simp only [evaluate, Visit.reference] at h
          split at h
          · split at h <;> cases h
          · cases h
          · cases h
      | record =>
          refine .inr ?_
          have hrecord := @record_of_entered walk levels place
          simp only [evaluate] at h
          cases hentered : walk.entered? place with
          | none =>
              rw [(record_of_not_entered hentered).2] at h
              cases h
          | some view =>
              simp only [hentered] at hrecord
              obtain ⟨events, -, hrecord⟩ := hrecord
              simp only [placesBelow, hserved, hentered]
              apply written_of_steps
              rw [hrecord, Visit.after_replaced] at h
              simp only [Visit.presentRecord, Visit.andThen] at h
              split at h
              · exact h
              · simpa only [Visit.hooks_replaced, Bool.or_false] using h
      | sequence =>
          refine .inr ?_
          simp only [placesBelow, hserved]
          rw [evaluate] at h
          rcases place.entersItems_or_idle with ⟨remaining, items, henters⟩ | ⟨-, stop, -, hidle⟩
          · rw [henters.sequence_eq, Visit.ofItems_replaced] at h
            rw [henters.items_eq]
            obtain ⟨next, hnext, hwritten⟩ := @written_of_items (walk.visitAt levels) (fun i item =>
              ⟨place.value.itemsWritable place.writable, place.resolved.item i, item, remaining⟩) 0
              items (Bool.and_eq_true_iff.1 h).1
            exact ⟨next, by simpa only [Nat.zero_add] using hnext, hwritten⟩
          · rw [hidle] at h
            cases h
      | mapping =>
          rw [evaluate] at h
          rcases place.entersEntries_or_idle with ⟨_, _, _, _, henters⟩ | ⟨-, stop, -, hidle⟩
          · rw [henters.mapping_eq] at h
            cases h
          · rw [hidle] at h
            cases h

end Walk

end RuleCheck
