import RuleCheck.Proofs.Walk.Coming
import RuleCheck.Proofs.Walk.Spots

/-! # The visits to a spot

A walk comes to the spots inside of a value, to some of them several times and to others never.  What stands at a
spot in the end is what the visits to the spot have made of the value there, one after another, and nothing else
has a part in it.
-/

namespace RuleCheck

theorem Evaluator.eq_of_category {evaluator other : Evaluator} (h : evaluator.category = other.category) :
    evaluator = other := by
  have hfound (evaluator : Evaluator) : forCategory? evaluator.category = some evaluator := by
    cases evaluator with
    | scalar kind => cases kind <;> rfl
    | _ => rfl
  exact Option.some.inj ((hfound evaluator).symm.trans (h ▸ hfound other))

def RecordStep.goesTo (name : String) : RecordStep → Bool
  | .descend field _ => field.name == name
  | _ => false

namespace Walk

/-- The places that the steps to a field come to, each as the steps before left it. -/
def fieldPlaces (walk : Walk) (levels : Nat) (typeName : String) (writable : Bool) (name : String) :
    List RecordStep → Value → List Place
  | [], _ => []
  | step :: plan, record =>
    (if step.goesTo name then step.place? writable record else none).toList ++
      (Visit.step (walk.visit levels) walk.tagKey typeName writable record step).onward
        (fieldPlaces walk levels typeName writable name plan)

/-- The places that a visit to a place comes to by a turn, in order. -/
def placesAt (walk : Walk) (levels : Nat) (place : Place) (turn : Turn) : List Place :=
  match walk.evaluator? place.resolved.category, turn with
  | some .optional, .present => place.present
  | some .reference, .content => place.content
  | some .sequence, .item index => (reached (walk.visitAt levels) place.items)[index]?.toList
  | some .mapping, .entry index => (reached (walk.visitAt levels) place.entries)[index]?.toList
  | some .record, .field name =>
    match walk.entered? place with
    | some view =>
      walk.fieldPlaces levels view.typeName place.writable name
        (RecordStep.all walk.tokenize view.fields place.rules) place.value
    | none => []
  | _, _ => []

/-- The visits that a walk makes to a spot, in order, each with the number of levels that are left there. -/
def visitsAt (walk : Walk) : Nat → Place → List Turn → List (Nat × Place)
  | levels, place, [] => [(levels, place)]
  | 0, _, _ :: _ => []
  | levels + 1, place, turn :: turns =>
    (walk.placesAt levels place turn).flatMap fun next => visitsAt walk levels next turns

/--
What visits make of a value, one after another.  Of a value whose visit was stopped, what is left of its old object
may be kept instead.
-/
inductive Made (walk : Walk) (declared : Annotation) : Value → List (Nat × Place) → Value → Prop
  | untouched (value : Value) : Made walk declared value [] value
  | visited (levels : Nat) (writable : Bool) (value : Value) (rules : RuleSet) :
      Made walk declared value [(levels, ⟨writable, declared, value, rules⟩)]
        (walk.visit levels writable declared value rules).value
  | left {value new : Value} {visits : List (Nat × Place)} (h : Made walk declared value visits new) :
      Made walk declared value visits (value.graft new)
  | andThen {value new last : Value} {visits later : List (Nat × Place)}
      (h : Made walk declared value visits new) (hlater : Made walk declared new later last) :
      Made walk declared value (visits ++ later) last

variable {walk : Walk} {levels rest : Nat} {place last : Place}

/-! ## The visits at spots are those that the walk makes -/

theorem mem_fieldPlaces_cons {typeName name : String} {writable : Bool} {step : RecordStep}
    {plan : List RecordStep} {record : Value} {next : Place} :
    next ∈ walk.fieldPlaces levels typeName writable name (step :: plan) record ↔
      (step.goesTo name = true ∧ step.place? writable record = some next) ∨
        ((Visit.step (walk.visit levels) walk.tagKey typeName writable record step).stop = none ∧
          next ∈ walk.fieldPlaces levels typeName writable name plan
            (Visit.step (walk.visit levels) walk.tagKey typeName writable record step).value) := by
  rw [fieldPlaces, List.mem_append, Option.mem_toList, Option.ite_none_right_eq_some, Visit.mem_onward_iff]

theorem mem_stepPlaces {typeName name : String} {writable : Bool} {plan : List RecordStep} {record : Value}
    {next : Place} (h : next ∈ walk.fieldPlaces levels typeName writable name plan record) :
    next ∈ walk.stepPlaces levels typeName writable plan record := by
  induction plan generalizing record with
  | nil => cases h
  | cons step plan ih =>
      rw [mem_stepPlaces_cons]
      rcases mem_fieldPlaces_cons.1 h with ⟨-, hfirst⟩ | ⟨hpassed, hlater⟩
      · exact .inl hfirst
      · exact .inr ⟨hpassed, ih hlater⟩

theorem mem_placesBelow {turn : Turn} {next : Place} (h : next ∈ walk.placesAt levels place turn) :
    next ∈ walk.placesBelow levels place := by
  unfold placesAt at h
  unfold placesBelow
  split at h
  · rename_i hserved
    simpa only [hserved] using h
  · rename_i hserved
    simpa only [hserved] using h
  · rename_i index hserved
    simp only [hserved]
    exact List.mem_of_getElem? (Option.mem_toList.1 h)
  · rename_i index hserved
    simp only [hserved]
    exact List.mem_of_getElem? (Option.mem_toList.1 h)
  · rename_i hserved
    simp only [hserved]
    cases hentered : walk.entered? place with
    | none =>
        simp only [hentered] at h
        cases h
    | some view =>
        simp only [hentered] at h
        exact mem_stepPlaces h
  · cases h

theorem comesTo_of_mem_visitsAt {turns : List Turn} (h : (rest, last) ∈ walk.visitsAt levels place turns) :
    walk.ComesTo levels place rest last := by
  induction turns generalizing levels place with
  | nil =>
      simp only [visitsAt, List.mem_singleton] at h
      cases h
      exact .here _ _
  | cons turn turns ih =>
      cases levels with
      | zero => cases h
      | succ levels =>
          obtain ⟨next, hnext, hlast⟩ := List.mem_flatMap.1 h
          exact .inside (mem_placesBelow hnext) (ih hlast)

theorem exists_fieldPlaces {typeName : String} {writable : Bool} {plan : List RecordStep} {record : Value}
    {next : Place} (h : next ∈ walk.stepPlaces levels typeName writable plan record) :
    ∃ name, next ∈ walk.fieldPlaces levels typeName writable name plan record := by
  induction plan generalizing record with
  | nil => cases h
  | cons step plan ih =>
      rcases mem_stepPlaces_cons.1 h with hfirst | ⟨hpassed, hlater⟩
      · cases step with
        | descend field rules =>
            exact ⟨field.name, mem_fieldPlaces_cons.2 (.inl ⟨beq_self_eq_true field.name, hfirst⟩)⟩
        | readFields | readRules | unknown => cases hfirst
      · obtain ⟨name, hname⟩ := ih hlater
        exact ⟨name, mem_fieldPlaces_cons.2 (.inr ⟨hpassed, hname⟩)⟩

theorem exists_turn {next : Place} (h : next ∈ walk.placesBelow levels place) :
    ∃ turn, next ∈ walk.placesAt levels place turn := by
  unfold placesBelow at h
  cases hserved : walk.evaluator? place.resolved.category with
  | none =>
      simp only [hserved] at h
      cases h
  | some evaluator =>
      cases evaluator with
      | optional =>
          simp only [hserved] at h
          exact ⟨.present, by simpa only [placesAt, hserved] using h⟩
      | reference =>
          simp only [hserved] at h
          exact ⟨.content, by simpa only [placesAt, hserved] using h⟩
      | scalar kind =>
          simp only [hserved] at h
          cases h
      | record =>
          simp only [hserved] at h
          cases hentered : walk.entered? place with
          | none =>
              simp only [hentered] at h
              cases h
          | some view =>
              simp only [hentered] at h
              obtain ⟨name, hname⟩ := exists_fieldPlaces h
              exact ⟨.field name, by simpa only [placesAt, hserved, hentered] using hname⟩
      | sequence =>
          simp only [hserved] at h
          obtain ⟨index, hindex⟩ := List.getElem?_of_mem h
          exact ⟨.item index, by simp only [placesAt, hserved, hindex, Option.toList_some, List.mem_singleton]⟩
      | mapping =>
          simp only [hserved] at h
          obtain ⟨index, hindex⟩ := List.getElem?_of_mem h
          exact ⟨.entry index, by simp only [placesAt, hserved, hindex, Option.toList_some, List.mem_singleton]⟩

theorem ComesTo.exists_turns (h : walk.ComesTo levels place rest last) :
    ∃ turns, (rest, last) ∈ walk.visitsAt levels place turns := by
  induction h with
  | here => exact ⟨[], by simp [visitsAt]⟩
  | inside hnext _ ih =>
      obtain ⟨turn, hturn⟩ := exists_turn hnext
      obtain ⟨turns, hlast⟩ := ih
      exact ⟨turn :: turns, List.mem_flatMap.2 ⟨_, hturn, hlast⟩⟩

/-! ## What the visits by one turn make -/

theorem made_items (writable : Bool) (annotate : Nat → Annotation) (remaining : RuleSet) (index : Nat)
    {items : List Value} {i : Nat} {item : Value} (hitem : items[i]? = some item) :
    ∃ new, (Visits.ofItems (fun i item => walk.visit levels writable (annotate i) item remaining) index
        items).values[i]? = some new ∧
      walk.Made (annotate (index + i)) item
        ((reached (walk.visitAt levels) (items.mapIdx fun i item =>
          ⟨writable, annotate (index + i), item, remaining⟩))[i]?.toList.map (levels, ·)) new := by
  induction items generalizing index i with
  | nil => cases hitem
  | cons first items ih =>
      rw [Visits.mapIdx_cons_from fun i item => Place.mk writable (annotate i) item remaining]
      simp only [reached, Visits.ofItems]
      cases hstop : (walk.visit levels writable (annotate index) first remaining).stop with
      | some stop =>
          have hstopped : (walk.visitAt levels ⟨writable, annotate index, first, remaining⟩).stop =
              some stop := hstop
          simp only [Visit.onward_of_stopped hstopped, Visits.halted]
          cases i with
          | zero =>
              cases hitem
              exact ⟨_, rfl, .visited levels writable _ remaining⟩
          | succ i => exact ⟨item, hitem, .untouched item⟩
      | none =>
          have hpassed : (walk.visitAt levels ⟨writable, annotate index, first, remaining⟩).stop = none :=
            hstop
          simp only [Visit.onward_of_passed hpassed, Visits.cons]
          cases i with
          | zero =>
              cases hitem
              exact ⟨_, rfl, .visited levels writable _ remaining⟩
          | succ i =>
              obtain ⟨new, hnew, hmade⟩ := ih (index + 1) hitem
              refine ⟨new, hnew, ?_⟩
              rwa [Nat.add_assoc, Nat.add_comm 1] at hmade

theorem made_entries (assigned writable : Bool) (declared : Annotation) (remaining : RuleSet)
    {entries : List (Value × Value)} {i : Nat} {entry : Value × Value} (hentry : entries[i]? = some entry) :
    ∃ new, (Visits.ofEntries assigned (fun item => walk.visit levels writable declared item remaining)
        entries).values[i]? = some new ∧
      walk.Made declared entry.2
        ((reached (walk.visitAt levels) (entries.map fun entry =>
          ⟨writable, declared, entry.2, remaining⟩))[i]?.toList.map (levels, ·)) new := by
  induction entries generalizing i with
  | nil => cases hentry
  | cons first entries ih =>
      obtain ⟨key, value⟩ := first
      simp only [List.map_cons, reached, Visits.ofEntries]
      cases hstop : (walk.visit levels writable declared value remaining).stop with
      | some stop =>
          have hstopped : (walk.visitAt levels ⟨writable, declared, value, remaining⟩).stop = some stop :=
            hstop
          simp only [Visit.onward_of_stopped hstopped, Visits.halted]
          cases i with
          | zero =>
              cases hentry
              have hmade := @Made.visited walk declared levels writable value remaining
              cases assigned with
              | true => exact ⟨_, rfl, hmade.left⟩
              | false => exact ⟨_, rfl, hmade⟩
          | succ i =>
              refine ⟨entry.2, ?_, .untouched entry.2⟩
              have hrest : entries[i]? = some entry := hentry
              simp [hrest]
      | none =>
          have hpassed : (walk.visitAt levels ⟨writable, declared, value, remaining⟩).stop = none := hstop
          simp only [Visit.onward_of_passed hpassed, Visits.cons]
          cases i with
          | zero =>
              cases hentry
              exact ⟨_, rfl, .visited levels writable _ remaining⟩
          | succ i => exact ih hentry

theorem made_step {typeName name : String} {writable : Bool} {step : RecordStep} {declared : Annotation}
    (hdeclared : ∀ field rules, step = .descend field rules → field.name = name → field.declared = declared)
    {record content : Value} (hcontent : record.fieldContent? name = some content) :
    ∃ new, (Visit.step (walk.visit levels) walk.tagKey typeName writable record step).value.fieldContent?
        name = some new ∧
      walk.Made declared content
        ((if step.goesTo name then step.place? writable record else none).toList.map (levels, ·)) new := by
  cases step with
  | readFields | readRules | unknown => exact ⟨content, hcontent, .untouched content⟩
  | descend field rules =>
      by_cases hname : field.name = name
      · have hplace : RecordStep.place? writable record (.descend field rules) =
            some ⟨record.isMutable || writable, declared, content, rules⟩ := by
          simp only [RecordStep.place?, hname, hcontent, hdeclared field rules rfl hname, Option.map_some]
        refine ⟨(walk.visit levels (record.isMutable || writable) declared content rules).value, ?_, ?_⟩
        · simp only [Visit.step, Visit.field, hname, hcontent, hdeclared field rules rfl hname]
          exact Value.fieldContent?_withField_self _ hcontent
        · simp only [RecordStep.goesTo, hname, beq_self_eq_true, if_true, hplace]
          exact .visited levels _ content rules
      · have hgoes : RecordStep.goesTo name (.descend field rules) = false := by
          simpa [RecordStep.goesTo] using hname
        simp only [hgoes, Bool.false_eq_true, if_false]
        refine ⟨content, ?_, .untouched content⟩
        simp only [Visit.step, Visit.field]
        split
        · exact hcontent
        · exact (Value.fieldContent?_withField_of_ne _ _ (Ne.symm hname)).trans hcontent

theorem made_steps {typeName name : String} {writable : Bool} {plan : List RecordStep} {declared : Annotation}
    (hdeclared : ∀ field rules, .descend field rules ∈ plan → field.name = name → field.declared = declared)
    {record content : Value} (hcontent : record.fieldContent? name = some content) :
    ∃ new, (Visit.steps (walk.visit levels) walk.tagKey typeName writable plan record).value.fieldContent?
        name = some new ∧
      walk.Made declared content
        ((walk.fieldPlaces levels typeName writable name plan record).map (levels, ·)) new := by
  induction plan generalizing record content with
  | nil => exact ⟨content, hcontent, .untouched content⟩
  | cons step plan ih =>
      obtain ⟨new, hnew, hmade⟩ : ∃ new, (Visit.step (walk.visit levels) walk.tagKey typeName writable record
          step).value.fieldContent? name = some new ∧ walk.Made declared content _ new :=
        made_step (fun field rules h => hdeclared field rules (by simp [h])) hcontent
      simp only [Visit.steps, fieldPlaces, List.map_append]
      cases hstop : (Visit.step (walk.visit levels) walk.tagKey typeName writable record step).stop with
      | some stop =>
          refine ⟨new, ?_, ?_⟩
          · simp only [Visit.andThen, hstop, hnew]
          · rw [Visit.onward_of_stopped hstop]
            simpa using hmade
      | none =>
          obtain ⟨last, hlast, hlater⟩ := ih (fun field rules h => hdeclared field rules (by simp [h])) hnew
          refine ⟨last, ?_, ?_⟩
          · simp only [Visit.andThen, hstop, hlast]
          · rw [Visit.onward_of_passed hstop]
            exact hmade.andThen hlater

/-! ## The visits by one turn, and by several -/

/-- What the visits by a turn make of the value there is what the turn leads to once the whole value is visited. -/
def TurnMade (walk : Walk) (levels : Nat) (place : Place) (turn : Turn) (next : Spot) : Prop :=
  ∃ inner,
    walk.Turns ⟨place.declared, (walk.visitAt (levels + 1) place).value⟩ turn ⟨next.declared, inner⟩ ∧
    walk.Made next.declared next.value ((walk.placesAt levels place turn).map (levels, ·)) inner

theorem turnMade_of_unchanged {turn : Turn} {next : Spot}
    (hturn : walk.Turns ⟨place.declared, place.value⟩ turn next)
    (hvalue : (walk.visitAt (levels + 1) place).value = place.value)
    (hplaces : walk.placesAt levels place turn = []) : walk.TurnMade levels place turn next := by
  refine ⟨next.value, ?_, ?_⟩
  · rw [hvalue]
    exact hturn
  · rw [hplaces]
    exact .untouched next.value

theorem visitAt_of_unserved (hserved : walk.evaluator? place.resolved.category = none) :
    walk.visitAt (levels + 1) place = (Visit.pass place.value).after
      [.skipped place.resolved.category place.value.classOf.name] := by
  have hskipped : walk.evaluator? (place.value.resolve place.declared).category = none := hserved
  simp only [visitAt, visit, hskipped]
  rfl

theorem placesAt_of_unserved (hserved : walk.evaluator? place.resolved.category = none) (turn : Turn) :
    walk.placesAt levels place turn = [] := by
  unfold placesAt
  split <;> first | rfl | (rename_i h; rw [hserved] at h; cases h)

/-- Without the evaluator that a turn belongs to, the value stays as it is and no visit is made by the turn. -/
theorem turnMade_of_served (hmatched : walk.Matched) (evaluator : Evaluator)
    (hcategory : place.resolved.category = evaluator.category) {turn : Turn} {next : Spot}
    (hturn : walk.Turns ⟨place.declared, place.value⟩ turn next)
    (h : walk.evaluator? place.resolved.category = some evaluator → walk.TurnMade levels place turn next) :
    walk.TurnMade levels place turn next := by
  cases hserved : walk.evaluator? place.resolved.category with
  | none =>
      refine turnMade_of_unchanged hturn ?_ (placesAt_of_unserved hserved turn)
      rw [visitAt_of_unserved hserved]
      rfl
  | some other =>
      have hsame : other = evaluator := Evaluator.eq_of_category ((hmatched _ _ hserved).trans hcategory)
      exact h (hserved.trans (congrArg some hsame))

theorem record_of_not_entered (hentered : walk.entered? place = none) :
    let visit := Visit.record (walk.visit levels) walk.tokenize walk.tagKey walk.context walk.view?
      place.writable place.value place.rules
    visit.value = place.value ∧ visit.replaced = false := by
  unfold entered? at hentered
  unfold Visit.record
  cases hnull : place.value.isNull with
  | true =>
      generalize place.value = value at hnull
      cases value <;> first | exact ⟨rfl, rfl⟩ | cases hnull
  | false =>
      simp only [Bool.false_eq_true, if_false]
      split
      · exact ⟨rfl, rfl⟩
      · split
        · exact ⟨rfl, rfl⟩
        · rename_i hfails hzero
          have hpasses : (place.value.isNull || place.rules.required &&
              (place.value.zeroFails || place.value.isZero)) = false := by
            simp_all
          rw [hpasses] at hentered
          simp only [Bool.false_eq_true, if_false] at hentered
          rw [hentered]
          exact ⟨rfl, rfl⟩

/-- The hooks of a record leave it as the visits to its fields did, if they assign nothing. -/
theorem presentRecord_value (hassign : walk.AssignsNothing) {base : Class} {view : RecordView}
    (hview : walk.view? base = some view) {events : List Event} :
    ((Visit.presentRecord (walk.visit levels) walk.tokenize walk.tagKey walk.context view place.writable
      place.value place.rules).after events).value =
      (Visit.steps (walk.visit levels) walk.tagKey view.typeName place.writable
        (RecordStep.all walk.tokenize view.fields place.rules) place.value).value := by
  simp only [Visit.after_value, Visit.presentRecord, Visit.andThen]
  split
  · rfl
  · exact hooks_value_of_assignsNothing hassign hview _

section

variable (hmatched : walk.Matched) (hdistinct : walk.DistinctFields) (hassign : walk.AssignsNothing)

include hmatched hdistinct hassign

theorem shaped_visitAt (levels : Nat) (place : Place) :
    Shaped walk.view? (walk.visitAt levels place).replaced place.declared place.value
      (walk.visitAt levels place).value :=
  (shapes_visit hmatched hdistinct hassign levels place.writable place.declared place.value
    place.rules).shaped

theorem made_present (hcategory : place.resolved.category = .optional) (hnull : place.value.isNull = false) :
    walk.TurnMade levels place .present ⟨place.resolved.element, place.value⟩ := by
  have hturn : walk.Turns ⟨place.declared, place.value⟩ .present ⟨place.resolved.element, place.value⟩ :=
    .present hcategory hnull
  refine turnMade_of_served hmatched .optional hcategory hturn fun hserved => ?_
  obtain ⟨-, inner, -, hinner, -⟩ :=
    (shaped_visitAt hmatched hdistinct hassign (levels + 1) place).turn hdistinct hturn
  have hvalue : (walk.visitAt (levels + 1) place).value = inner := hinner.of_present
  refine ⟨inner, hinner, ?_⟩
  rw [← hvalue, visitAt_of_served hserved]
  simp only [placesAt, hserved, Place.present, evaluate, Visit.optional, hnull, Bool.false_eq_true, if_false]
  exact .visited levels place.writable place.value place.rules

theorem made_content {content : Value} (hvalue : place.value = .box content)
    (hcategory : place.resolved.category = .reference) :
    walk.TurnMade levels place .content ⟨place.resolved.element, content⟩ := by
  have hturn : walk.Turns ⟨place.declared, place.value⟩ .content ⟨place.resolved.element, content⟩ := by
    unfold Place.resolved at hcategory ⊢
    rw [hvalue] at hcategory ⊢
    exact .content hcategory
  refine turnMade_of_served hmatched .reference hcategory hturn fun hserved => ?_
  cases hnull : content.isNull with
  | true =>
      obtain rfl := Value.eq_null_of_isNull hnull
      refine turnMade_of_unchanged hturn ?_ ?_
      · rw [visitAt_of_served hserved]
        simp only [evaluate, Visit.reference, hvalue]
        split <;> rfl
      · simp only [placesAt, hserved, Place.content, hvalue]
  | false =>
      obtain ⟨-, inner, -, hinner, -⟩ :=
        (shaped_visitAt hmatched hdistinct hassign (levels + 1) place).turn hdistinct hturn
      have hvisit : (walk.visitAt (levels + 1) place).value =
          .box (walk.visit levels true place.resolved.element content place.rules).value := by
        rw [visitAt_of_served hserved]
        simp only [evaluate, hvalue, Visit.reference_present hnull]
      have hcontent : Value.box inner = .box _ := hinner.of_content.symm.trans hvisit
      refine ⟨inner, hinner, ?_⟩
      rw [Value.box.inj hcontent]
      simp only [placesAt, hserved, Place.content_of_box hvalue hnull]
      exact .visited levels true content place.rules

theorem made_item {items : List Value} {index : Nat} {item : Value} (hcategory : place.resolved.category = .list)
    (hnull : place.value.isNull = false) (hitems : place.value.items? = some items)
    (hitem : items[index]? = some item) :
    walk.TurnMade levels place (.item index) ⟨place.resolved.item index, item⟩ := by
  have hturn : walk.Turns ⟨place.declared, place.value⟩ (.item index) ⟨place.resolved.item index, item⟩ :=
    .item hcategory hnull hitems hitem
  refine turnMade_of_served hmatched .sequence hcategory hturn fun hserved => ?_
  have hvisit : walk.visitAt (levels + 1) place = Visit.sequence (walk.visit levels) place.writable
      place.resolved place.value place.rules := visitAt_of_served hserved
  have hplaces : walk.placesAt levels place (.item index) =
      (reached (walk.visitAt levels) place.items)[index]?.toList := by
    simp only [placesAt, hserved]
  rcases place.entersItems_or_idle with ⟨remaining, own, henters⟩ | ⟨hnone, stop, -, hidle⟩
  · cases henters.items?.symm.trans hitems
    obtain ⟨-, inner, -, hinner, -⟩ :=
      (shaped_visitAt hmatched hdistinct hassign (levels + 1) place).turn hdistinct hturn
    obtain ⟨news, hnews, hnew⟩ := hinner.of_item
    obtain ⟨made, hmade, hvisits⟩ := @made_items walk levels
      (place.value.itemsWritable place.writable) place.resolved.item remaining 0 items index item hitem
    obtain ⟨hsize, own, -, hwritable, hparts⟩ := @shaped_items walk.view? (walk.visit levels)
      place.declared place.value place.writable (shapes_visit hmatched hdistinct hassign levels)
      remaining items
    -- the numbers of a range stay as they are, so the value has the visited items in any case
    have hrange := fun start stop step hvalue => Shaped.range_items start stop step hvalue hitems hsize
      (fun hany => itemsWritable_mono (hwritable hany)) hparts
    have hrebuilt := fun replaced =>
      (Value.items?_rebuild hnull hcategory hitems hsize hrange replaced).1
    have hvalue : (walk.visitAt (levels + 1) place).value.items? = some (Visits.ofItems (fun i item =>
        walk.visit levels (place.value.itemsWritable place.writable) (place.resolved.item i) item
          remaining) 0 items).values := by
      rw [hvisit, henters.sequence_eq, Visit.ofItems_value]
      exact hrebuilt _
    cases hnews.symm.trans hvalue
    cases hnew.symm.trans hmade
    refine ⟨inner, hinner, ?_⟩
    rw [hplaces, henters.items_eq]
    simpa only [Nat.zero_add] using hvisits
  · exact turnMade_of_unchanged hturn (by rw [hvisit, hidle]) (by rw [hplaces, hnone]; rfl)

theorem made_entry {kind : MappingKind} {derived : Option String} {entries : List (Value × Value)} {index : Nat}
    {entry : Value × Value} (hvalue : place.value = .mapping kind derived entries)
    (hcategory : place.resolved.category = .map) (hentry : entries[index]? = some entry) :
    walk.TurnMade levels place (.entry index) ⟨place.resolved.element, entry.2⟩ := by
  have hturn : walk.Turns ⟨place.declared, place.value⟩ (.entry index)
      ⟨place.resolved.element, entry.2⟩ := by
    unfold Place.resolved at hcategory ⊢
    rw [hvalue] at hcategory ⊢
    exact .entry hcategory hentry
  refine turnMade_of_served hmatched .mapping hcategory hturn fun hserved => ?_
  have hvisit : walk.visitAt (levels + 1) place = Visit.mapping (walk.visit levels) place.resolved
      place.value place.rules := visitAt_of_served hserved
  have hplaces : walk.placesAt levels place (.entry index) =
      (reached (walk.visitAt levels) place.entries)[index]?.toList := by
    simp only [placesAt, hserved]
  rcases place.entersEntries_or_idle with ⟨remaining, _, _, _, henters⟩ | ⟨hnone, stop, -, hidle⟩
  · cases henters.value_eq.symm.trans hvalue
    obtain ⟨-, inner, -, hinner, -⟩ :=
      (shaped_visitAt hmatched hdistinct hassign (levels + 1) place).turn hdistinct hturn
    obtain ⟨kind', derived', news, new, hnews, hnew, rfl⟩ := hinner.of_entry
    obtain ⟨made, hmade, hvisits⟩ := @made_entries walk levels kind.isMutable kind.isMutable
      place.resolved.element remaining entries index entry hentry
    have hvalue' : (walk.visitAt (levels + 1) place).value = (Value.mapping kind derived entries).withEntries
        (Visits.ofEntries kind.isMutable (fun item => walk.visit levels kind.isMutable
          place.resolved.element item remaining) entries).values := by
      rw [hvisit, henters.mapping_eq]
    cases hnews.symm.trans hvalue'
    rw [List.getElem?_zipWith, hentry, hmade, Option.some.injEq] at hnew
    refine ⟨new.2, hinner, ?_⟩
    rw [hplaces, henters.entries_eq, ← hnew]
    exact hvisits
  · exact turnMade_of_unchanged hturn (by rw [hvisit, hidle]) (by rw [hplaces, hnone]; rfl)

theorem made_field {view : RecordView} {field : Field} {content : Value}
    (hcategory : place.resolved.category = .record) (hview : walk.view? place.value.classOf = some view)
    (hfield : field ∈ view.fields) (hcontent : place.value.fieldContent? field.name = some content) :
    walk.TurnMade levels place (.field field.name) ⟨field.declared, content⟩ := by
  have hturn : walk.Turns ⟨place.declared, place.value⟩ (.field field.name) ⟨field.declared, content⟩ :=
    .field hcategory hview hfield hcontent
  refine turnMade_of_served hmatched .record hcategory hturn fun hserved => ?_
  have hvisit : walk.visitAt (levels + 1) place = Visit.record (walk.visit levels) walk.tokenize walk.tagKey
      walk.context walk.view? place.writable place.value place.rules := visitAt_of_served hserved
  cases hentered : walk.entered? place with
  | none =>
      refine turnMade_of_unchanged hturn ?_ (by simp only [placesAt, hserved, hentered])
      rw [hvisit]
      exact (record_of_not_entered hentered).1
  | some other =>
      cases hview.symm.trans (view_of_entered hentered)
      have hrecord := @record_of_entered walk levels place
      simp only [hentered] at hrecord
      obtain ⟨events, -, hrecord⟩ := hrecord
      obtain ⟨-, inner, -, hinner, -⟩ :=
        (shaped_visitAt hmatched hdistinct hassign (levels + 1) place).turn hdistinct hturn
      obtain ⟨made, hmade, hvisits⟩ := @made_steps walk levels view.typeName field.name place.writable
        (RecordStep.all walk.tokenize view.fields place.rules) field.declared (fun other rules hmem hname =>
          congrArg Field.declared (List.inj_on_of_nodup_map (hdistinct _ _ hview)
            (RecordStep.of_descend_mem_all hmem).1 hfield hname)) place.value content hcontent
      have hvalue : (walk.visitAt (levels + 1) place).value = (Visit.steps (walk.visit levels) walk.tagKey
          view.typeName place.writable (RecordStep.all walk.tokenize view.fields place.rules)
            place.value).value := by
        rw [hvisit, hrecord]
        exact presentRecord_value hassign hview
      have hfound : (walk.visitAt (levels + 1) place).value.fieldContent? field.name = some inner :=
        hinner.of_field
      rw [hvalue, hmade, Option.some.injEq] at hfound
      subst hfound
      refine ⟨made, hinner, ?_⟩
      simp only [placesAt, hserved, hentered]
      exact hvisits

theorem turnMade {turn : Turn} {next : Spot} (hturn : walk.Turns ⟨place.declared, place.value⟩ turn next) :
    walk.TurnMade levels place turn next := by
  generalize hspot : Spot.mk place.declared place.value = spot at hturn
  cases hturn with
  | present hcategory hnull =>
      cases hspot
      exact made_present hmatched hdistinct hassign hcategory hnull
  | content hcategory =>
      obtain ⟨rfl, hvalue⟩ := Spot.mk.inj hspot
      rw [← hvalue] at hcategory ⊢
      exact made_content hmatched hdistinct hassign hvalue hcategory
  | item hcategory hnull hitems hitem =>
      cases hspot
      exact made_item hmatched hdistinct hassign hcategory hnull hitems hitem
  | entry hcategory hentry =>
      obtain ⟨rfl, hvalue⟩ := Spot.mk.inj hspot
      rw [← hvalue] at hcategory ⊢
      exact made_entry hmatched hdistinct hassign hvalue hcategory hentry
  | field hcategory hview hfield hcontent =>
      cases hspot
      exact made_field hmatched hdistinct hassign hcategory hview hfield hcontent

theorem Made.shaped {declared : Annotation} {value new : Value} {visits : List (Nat × Place)}
    (h : walk.Made declared value visits new) : ∃ written, Shaped walk.view? written declared value new := by
  induction h with
  | untouched value => exact ⟨false, .same declared value⟩
  | visited levels writable value rules =>
      exact ⟨_, shaped_visitAt hmatched hdistinct hassign levels ⟨writable, declared, value, rules⟩⟩
  | left _ ih =>
      obtain ⟨written, hshaped⟩ := ih
      exact ⟨false, hshaped.graft⟩
  | andThen _ _ ih ihLater =>
      obtain ⟨written, hshaped⟩ := ih
      obtain ⟨later, hlater⟩ := ihLater
      exact ⟨written || later, hshaped.trans hlater⟩

/-- Below a value that is visited several times, the visits of all these times follow one another. -/
theorem Made.leads {declared : Annotation} {value new : Value} {visits : List (Nat × Place)}
    (h : walk.Made declared value visits new) {turns : List Turn}
    (hvisit : ∀ visit ∈ visits, ∀ last, walk.Leads ⟨visit.2.declared, visit.2.value⟩ turns last →
      ∃ made,
        walk.Leads ⟨visit.2.declared, (walk.visitAt visit.1 visit.2).value⟩ turns ⟨last.declared, made⟩ ∧
        walk.Made last.declared last.value (walk.visitsAt visit.1 visit.2 turns) made)
    {last : Spot} (hleads : walk.Leads ⟨declared, value⟩ turns last) :
    ∃ made, walk.Leads ⟨declared, new⟩ turns ⟨last.declared, made⟩ ∧
      walk.Made last.declared last.value (visits.flatMap fun visit => walk.visitsAt visit.1 visit.2 turns)
        made := by
  induction h generalizing last with
  | untouched value => exact ⟨last.value, hleads, .untouched last.value⟩
  | visited levels writable value rules =>
      rw [List.flatMap_singleton]
      exact hvisit _ (List.mem_singleton_self _) last hleads
  | left h ih =>
      obtain ⟨written, hshaped⟩ := h.shaped hmatched hdistinct hassign
      obtain ⟨made, hmade, hvisits⟩ := ih hvisit hleads
      obtain ⟨left, hleft, rfl | rfl⟩ := hleads.graft hdistinct hshaped hmade
      · exact ⟨left, hleft, hvisits⟩
      · exact ⟨_, hleft, hvisits.left⟩
  | andThen _ _ ih ihLater =>
      obtain ⟨hfirst, hlater⟩ := List.forall_mem_append.1 hvisit
      obtain ⟨made, hmade, hvisits⟩ := ih hfirst hleads
      obtain ⟨final, hfinal, hrest⟩ := ihLater hlater hmade
      rw [List.flatMap_append]
      exact ⟨final, hfinal, hvisits.andThen hrest⟩

theorem leads_visitAt (levels : Nat) (place : Place) {turns : List Turn} {last : Spot}
    (hleads : walk.Leads ⟨place.declared, place.value⟩ turns last) :
    ∃ made, walk.Leads ⟨place.declared, (walk.visitAt levels place).value⟩ turns ⟨last.declared, made⟩ ∧
      walk.Made last.declared last.value (walk.visitsAt levels place turns) made := by
  induction levels generalizing place turns last with
  | zero =>
      cases turns with
      | nil =>
          cases hleads
          simp only [visitsAt]
          exact ⟨_, .here _, .visited 0 place.writable place.value place.rules⟩
      | cons turn turns => exact ⟨last.value, hleads, .untouched last.value⟩
  | succ levels ih =>
      cases hleads with
      | here =>
          simp only [visitsAt]
          exact ⟨_, .here _, .visited (levels + 1) place.writable place.value place.rules⟩
      | @turn _ next _ turn turns hturn hrest =>
          obtain ⟨inner, hinner, hmade⟩ :=
            @turnMade walk levels place hmatched hdistinct hassign turn next hturn
          have hbelow : ∀ visit ∈ (walk.placesAt levels place turn).map (levels, ·), ∀ last,
              walk.Leads ⟨visit.2.declared, visit.2.value⟩ turns last → ∃ made,
                walk.Leads ⟨visit.2.declared, (walk.visitAt visit.1 visit.2).value⟩ turns
                  ⟨last.declared, made⟩ ∧
                walk.Made last.declared last.value (walk.visitsAt visit.1 visit.2 turns) made := by
            intro visit hvisit last hleads
            obtain ⟨below, -, rfl⟩ := List.mem_map.1 hvisit
            exact ih below hleads
          obtain ⟨made, hlast, hvisits⟩ := hmade.leads hmatched hdistinct hassign hbelow hrest
          refine ⟨made, .turn hinner hlast, ?_⟩
          rw [List.flatMap_map] at hvisits
          exact hvisits

end

end Walk

end RuleCheck
