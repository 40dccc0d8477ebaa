import RuleCheck.Proofs.Text.Joining
import RuleCheck.Proofs.Walk.Failures
import RuleCheck.Proofs.Walk.Grounded
import RuleCheck.Proofs.Walk.HookRecords

/-! # The visits that a walk makes

The places below a place are all that a visit to it comes to, and so on below each of them.  What stops the
visit to one of these places stops the whole walk, and each of them has levels enough left.
-/

namespace RuleCheck

theorem Visit.andThen_stop_of_stopped {visit : Visit} {stop : Stop} (hstop : visit.stop = some stop)
    (next : Value → Visit) : (visit.andThen next).stop = some stop := by
  simp only [andThen, hstop]

namespace Walk

/-- The places that a walk comes to, each with the number of levels that are left there. -/
inductive ComesTo (walk : Walk) : Nat → Place → Nat → Place → Prop
  | here (levels : Nat) (place : Place) : ComesTo walk levels place levels place
  | inside {levels rest : Nat} {place next last : Place} (hnext : next ∈ walk.placesBelow levels place)
      (hrest : ComesTo walk levels next rest last) : ComesTo walk (levels + 1) place rest last

variable {walk : Walk} {levels rest : Nat} {place next last : Place}

/-! ## What a visit goes on to -/

/-- A place of a list that is gone through is visited only if all before it have passed. -/
theorem exists_of_mem_reached {visit : Place → Visit} {places : List Place}
    (h : next ∈ reached visit places) :
    ∃ index, places[index]? = some next ∧
      ∀ (i : Nat) other, i < index → places[i]? = some other → (visit other).stop = none := by
  induction places with
  | nil => cases h
  | cons place places ih =>
      rcases mem_reached_cons.1 h with rfl | ⟨hstop, hlater⟩
      · exact ⟨0, rfl, fun i other hi => absurd hi (Nat.not_lt_zero i)⟩
      · obtain ⟨index, hnext, hbefore⟩ := ih hlater
        refine ⟨index + 1, hnext, fun i other hi hother => ?_⟩
        cases i with
        | zero =>
            cases hother
            exact hstop
        | succ i => exact hbefore i other (Nat.lt_of_succ_lt_succ hi) hother

/-- A place that steps come to is that of a field, as the steps before left the record. -/
theorem exists_of_mem_stepPlaces {typeName : String} {writable : Bool} {plan : List RecordStep}
    {record : Value} (h : next ∈ walk.stepPlaces levels typeName writable plan record) :
    ∃ before field rules after content, plan = before ++ .descend field rules :: after ∧
      (Visit.steps (walk.visit levels) walk.tagKey typeName writable before record).stop = none ∧
      (Visit.steps (walk.visit levels) walk.tagKey typeName writable before
        record).value.fieldContent? field.name = some content ∧
      next = ⟨(Visit.steps (walk.visit levels) walk.tagKey typeName writable before
        record).value.isMutable || writable, field.declared, content, rules⟩ := by
  induction plan generalizing record with
  | nil => cases h
  | cons step plan ih =>
      rcases mem_stepPlaces_cons.1 h with hfirst | ⟨hstop, hlater⟩
      · cases step with
        | descend field rules =>
            obtain ⟨content, hcontent, rfl⟩ := Option.map_eq_some_iff.1 hfirst
            exact ⟨[], field, rules, plan, content, rfl, rfl, hcontent, rfl⟩
        | readFields | readRules | unknown => cases hfirst
      · obtain ⟨before, field, rules, after, content, rfl, hbefore, hcontent, hnext⟩ := ih hlater
        have hsteps (rest : List RecordStep) : Visit.steps (walk.visit levels) walk.tagKey typeName
            writable (step :: rest) record = (Visit.step (walk.visit levels) walk.tagKey typeName writable
              record step).andThen (Visit.steps (walk.visit levels) walk.tagKey typeName writable rest) :=
          rfl
        refine ⟨step :: before, field, rules, after, content, rfl, ?_⟩
        simp only [hsteps, Visit.andThen, hstop]
        exact ⟨hbefore, hcontent, hnext⟩

theorem dispatches_of_below (h : next ∈ walk.placesBelow levels place) :
    walk.Dispatches levels place next := by
  unfold placesBelow at h
  cases hserved : walk.evaluator? place.resolved.category with
  | none =>
      simp only [hserved] at h
      cases h
  | some evaluator =>
      cases evaluator with
      | optional =>
          simp only [hserved] at h
          obtain ⟨hnull, rfl⟩ := Place.mem_present.1 h
          exact .present hserved hnull
      | reference =>
          simp only [hserved] at h
          obtain ⟨inner, hvalue, hnull, rfl⟩ := Place.mem_content.1 h
          exact .content hserved hvalue hnull
      | scalar kind =>
          simp only [hserved] at h
          cases h
      | record =>
          simp only [hserved] at h
          split at h
          · rename_i view hentered
            obtain ⟨before, field, rules, after, content, hplan, hbefore, hcontent, rfl⟩ :=
              exists_of_mem_stepPlaces h
            exact .field hserved (view_of_entered hentered) hplan hbefore hcontent
          · cases h
      | sequence =>
          simp only [hserved] at h
          obtain ⟨index, hplace, hbefore⟩ := exists_of_mem_reached h
          obtain ⟨remaining, items, henters, -⟩ := Place.exists_of_mem_items (List.mem_of_getElem? hplace)
          simp only [henters.items_eq, List.getElem?_mapIdx, Option.map_eq_some_iff] at hplace hbefore
          obtain ⟨item, hitem, rfl⟩ := hplace
          exact .item hserved henters.checkLength henters.items? hitem fun i other hi hother =>
            hbefore i _ hi ⟨other, hother, rfl⟩
      | mapping =>
          simp only [hserved] at h
          obtain ⟨index, hplace, hbefore⟩ := exists_of_mem_reached h
          obtain ⟨remaining, kind, derived, entries, henters, -⟩ :=
            Place.exists_of_mem_entries (List.mem_of_getElem? hplace)
          simp only [henters.entries_eq, List.getElem?_map, Option.map_eq_some_iff] at hplace hbefore
          obtain ⟨⟨key, item⟩, hentry, rfl⟩ := hplace
          exact .entry hserved henters.checkLength henters.value_eq hentry fun i other hi hother =>
            hbefore i _ hi ⟨other, hother, rfl⟩

/-- The rules of a place that a visit goes on to are among its own, or those of a declared field. -/
theorem Dispatches.rules_from (h : walk.Dispatches levels place next) :
    next.rules.tokens ⊆ place.rules.tokens ∨
      ∃ base view, walk.view? base = some view ∧ ∃ field ∈ view.fields, next.rules = walk.tokenize field.rules := by
  cases h with
  | present | content => exact .inl (List.Subset.refl _)
  | item _ hremaining | entry _ hremaining =>
      rw [(RuleSet.checkLength_eq_ok hremaining).2]
      exact .inl fun _ h => (List.mem_filter.1 h).1
  | @field view before rest field rules content _ hview hplan =>
      have hmem : .descend field rules ∈ RecordStep.all walk.tokenize view.fields place.rules := by
        rw [hplan]
        simp
      obtain ⟨hfield, rfl | rfl⟩ := RecordStep.of_descend_mem_all hmem
      · exact .inl fun _ h => (List.mem_filter.1 h).1
      · exact .inr ⟨_, view, hview, field, hfield, rfl⟩

/-! ## What stops a walk -/

theorem stop_of_reached_items {visit : Place → Visit} (place : Nat → Value → Place) (index : Nat)
    {items : List Value} {stop : Stop}
    (h : next ∈ reached visit (items.mapIdx fun i => place (index + i)))
    (hstop : (visit next).stop = some stop) :
    ∃ segment, (Visits.ofItems (fun i item => visit (place i item)) index items).stop =
      some (stop.under segment) := by
  induction items generalizing index with
  | nil => cases h
  | cons item items ih =>
      rw [Visits.mapIdx_cons_from, mem_reached_cons] at h
      rcases h with rfl | ⟨hfirst, hlater⟩
      · simp only [Visits.ofItems, hstop]
        exact ⟨_, rfl⟩
      · simp only [Visits.ofItems, hfirst]
        exact ih (index + 1) hlater

theorem stop_of_reached_entries {visit : Place → Visit} (place : Value → Place) (assigned : Bool)
    {entries : List (Value × Value)} {stop : Stop}
    (h : next ∈ reached visit (entries.map fun entry => place entry.2))
    (hstop : (visit next).stop = some stop) :
    ∃ segment, (Visits.ofEntries assigned (fun item => visit (place item)) entries).stop =
      some (stop.under segment) := by
  induction entries with
  | nil => cases h
  | cons entry entries ih =>
      obtain ⟨key, item⟩ := entry
      rw [List.map_cons, mem_reached_cons] at h
      rcases h with rfl | ⟨hfirst, hlater⟩
      · simp only [Visits.ofEntries, hstop]
        exact ⟨_, rfl⟩
      · simp only [Visits.ofEntries, hfirst]
        exact ih hlater

theorem stop_of_stepPlaces {typeName : String} {writable : Bool} {plan : List RecordStep} {record : Value}
    {stop : Stop} (h : next ∈ walk.stepPlaces levels typeName writable plan record)
    (hstop : (walk.visitAt levels next).stop = some stop) :
    ∃ segment, (Visit.steps (walk.visit levels) walk.tagKey typeName writable plan record).stop =
      some (stop.under segment) := by
  induction plan generalizing record with
  | nil => cases h
  | cons step plan ih =>
      rw [Visit.steps]
      rcases mem_stepPlaces_cons.1 h with hfirst | ⟨hpassed, hlater⟩
      · cases step with
        | descend field rules =>
            obtain ⟨content, hcontent, rfl⟩ := Option.map_eq_some_iff.1 hfirst
            refine ⟨field.name, Visit.andThen_stop_of_stopped ?_ _⟩
            simp only [visitAt] at hstop
            simp only [Visit.step, Visit.field, hcontent, hstop, Option.map_some]
        | readFields | readRules | unknown => cases hfirst
      · simp only [Visit.andThen, hpassed]
        exact ih hlater

/-- What stops a visit below a place stops the visit to the place, seen from there. -/
theorem stop_of_below {stop : Stop} (h : next ∈ walk.placesBelow levels place)
    (hstop : (walk.visitAt levels next).stop = some stop) :
    ∃ segments, (walk.visitAt (levels + 1) place).stop = some (stop.through segments) := by
  unfold placesBelow at h
  cases hserved : walk.evaluator? place.resolved.category with
  | none =>
      simp only [hserved] at h
      cases h
  | some evaluator =>
      rw [visitAt_of_served hserved]
      cases evaluator with
      | optional =>
          simp only [hserved] at h
          obtain ⟨hnull, rfl⟩ := Place.mem_present.1 h
          refine ⟨[], ?_⟩
          simp only [evaluate, Visit.optional, hnull, Bool.false_eq_true, if_false]
          exact hstop
      | reference =>
          simp only [hserved] at h
          obtain ⟨inner, hvalue, hnull, rfl⟩ := Place.mem_content.1 h
          refine ⟨[], ?_⟩
          simp only [evaluate, hvalue, Visit.reference_present hnull]
          exact hstop
      | scalar kind =>
          simp only [hserved] at h
          cases h
      | record =>
          have hvisit := @record_of_entered walk levels place
          cases hentered : walk.entered? place with
          | none =>
              simp only [hserved, hentered] at h
              cases h
          | some view =>
              simp only [hserved, hentered] at h hvisit
              obtain ⟨events, -, hvisit⟩ := hvisit
              obtain ⟨segment, hsteps⟩ := stop_of_stepPlaces h hstop
              refine ⟨[segment], ?_⟩
              simp only [evaluate, hvisit, Visit.after_stop, Visit.presentRecord]
              exact Visit.andThen_stop_of_stopped hsteps _
      | sequence =>
          simp only [hserved] at h
          rcases place.entersItems_or_idle with ⟨remaining, items, henters⟩ | ⟨hnone, -⟩
          · rw [henters.items_eq] at h
            obtain ⟨segment, hvisits⟩ := stop_of_reached_items (fun i item =>
              ⟨place.value.itemsWritable place.writable, place.resolved.item i, item, remaining⟩) 0
              (by simpa only [Nat.zero_add] using h) hstop
            refine ⟨[segment], ?_⟩
            rw [evaluate, henters.sequence_eq, Visit.ofItems_stop]
            exact hvisits
          · rw [hnone] at h
            cases h
      | mapping =>
          simp only [hserved] at h
          rcases place.entersEntries_or_idle with ⟨remaining, kind, derived, entries, henters⟩ | ⟨hnone, -⟩
          · rw [henters.entries_eq] at h
            obtain ⟨segment, hvisits⟩ := stop_of_reached_entries (fun item =>
              ⟨kind.isMutable, place.resolved.element, item, remaining⟩) kind.isMutable h hstop
            refine ⟨[segment], ?_⟩
            rw [evaluate, henters.mapping_eq]
            exact hvisits
          · rw [hnone] at h
            cases h

namespace ComesTo

/-- What stops the visit to a place that a walk comes to stops the walk, seen from further up. -/
theorem stopped {stop : Stop} (h : walk.ComesTo levels place rest last)
    (hstop : (walk.visitAt rest last).stop = some stop) :
    ∃ segments, (walk.visitAt levels place).stop = some (stop.through segments) := by
  induction h with
  | here => exact ⟨[], hstop⟩
  | inside hnext _ ih =>
      obtain ⟨inner, hinner⟩ := ih hstop
      obtain ⟨outer, houter⟩ := stop_of_below hnext hinner
      refine ⟨outer ++ inner, houter.trans (congrArg some ?_)⟩
      exact (List.foldr_append ..).symm

theorem levelsOf_le (hground : ∀ category, walk.evaluator? category = some .optional →
      category = .optional ∨ category = .uint) (htext : walk.evaluator? .text ≠ some .sequence)
    (hassign : walk.AssignsNothing) {parts : Nat} (hfields : walk.FieldsBounded parts)
    (h : walk.ComesTo levels place rest last) (hsize : place.declared.size ≤ parts)
    (hlevels : levelsOf parts place ≤ levels) :
    levelsOf parts last ≤ rest ∧ last.declared.size ≤ parts := by
  induction h with
  | here => exact ⟨hlevels, hsize⟩
  | inside hnext _ ih =>
      have hfollows := (dispatches_of_below hnext).follows hground htext hassign hfields
      have hlt := hfollows.levelsOf_lt hsize
      exact ih (hfollows.size_le hsize) (by omega)

/-- What holds of the rules of the first place and of all fields, and is kept by fewer rules, holds wherever a walk
comes to. -/
theorem rules_of {P : RuleSet → Prop}
    (hfewer : ∀ {rules fewer : RuleSet}, fewer.tokens ⊆ rules.tokens → P rules → P fewer)
    (hfields : ∀ base view, walk.view? base = some view → ∀ field ∈ view.fields, P (walk.tokenize field.rules))
    (h : walk.ComesTo levels place rest last) (hrules : P place.rules) : P last.rules := by
  induction h with
  | here => exact hrules
  | inside hnext _ ih =>
      apply ih
      rcases (dispatches_of_below hnext).rules_from with hsubset | ⟨base, view, hview, field, hfield, hown⟩
      · exact hfewer hsubset hrules
      · rw [hown]
        exact hfields base view hview field hfield

theorem written (htokens : ∀ text, (walk.tokenize text).Written) (h : walk.ComesTo levels place rest last)
    (hrules : place.rules.Written) : last.rules.Written :=
  h.rules_of (fun hsubset hwritten => hwritten.of_subset hsubset) (fun _ _ _ _ _ => htokens _) hrules

end ComesTo

end Walk

end RuleCheck
