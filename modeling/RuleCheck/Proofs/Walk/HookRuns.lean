import RuleCheck.Proofs.Walk.Calls
import RuleCheck.Proofs.Walk.Entailing

/-! # The hooks that a walk runs, with their records

The events of a walk tell which hooks were called, but not what the hooks found.  Here the places that a
visit comes to are listed in order, each as the visits before it left it; from them follows the list of the
hooks that a walk runs, each with the record that it is run on.  The calls in the events are those of this
list.
-/

namespace RuleCheck

/-- The run of a hook: its call, and the record that it is called for. -/
structure HookRun where
  call : HookCall
  record : Value

namespace Visit

/-- What is left to do after a visit, which is nothing if the visit was stopped. -/
def onward {α : Type} (visit : Visit) (next : Value → List α) : List α :=
  match visit.stop with
  | none => next visit.value
  | some _ => []

theorem onward_of_passed {α : Type} {visit : Visit} (hpass : visit.stop = none) (next : Value → List α) :
    visit.onward next = next visit.value := by
  simp only [onward, hpass]

theorem onward_of_stopped {α : Type} {visit : Visit} {stop : Stop} (hstop : visit.stop = some stop)
    (next : Value → List α) : visit.onward next = [] := by
  simp only [onward, hstop]

theorem mem_onward_iff {α : Type} {visit : Visit} {next : Value → List α} {a : α} :
    a ∈ visit.onward next ↔ visit.stop = none ∧ a ∈ next visit.value := by
  cases hstop : visit.stop with
  | none => simp [onward_of_passed hstop]
  | some stop => simp [onward_of_stopped hstop]

theorem map_onward {α β : Type} (f : α → β) (visit : Visit) (next : Value → List α) :
    (visit.onward next).map f = visit.onward fun value => (next value).map f := by
  unfold onward
  split <;> rfl

theorem calls_andThen_onward (visit : Visit) (next : Value → Visit) :
    (visit.andThen next).calls = visit.calls ++ visit.onward fun value => (next value).calls := by
  cases hstop : visit.stop with
  | none => rw [calls_andThen hstop, onward_of_passed hstop]
  | some stop => simp [andThen, hstop, onward]

/-- The run of a hook on a record, if the record's type has the hook and it can be called. -/
def hookRun (typeName : String) (called : Option Value) (method : Option Hook) (record : Value) :
    List HookRun :=
  (method.filter Hook.isMethod).toList.map fun _ => ⟨⟨typeName, called⟩, record⟩

/-- The runs of both hooks on a record: the second one, on what the first one left, only if that one passes. -/
def hookRuns (view : RecordView) (context record : Value) : List HookRun :=
  hookRun view.typeName none view.selfHook record ++
    (hook view.typeName none context view.selfHook record).onward
      (hookRun view.typeName (some context) view.contextHook)

theorem calls_hook (typeName : String) (called : Option Value) (context : Value)
    (method : Option Hook) (record : Value) :
    (hook typeName called context method record).calls =
      (hookRun typeName called method record).map HookRun.call := by
  cases method with
  | none => rfl
  | some method => cases hmethod : method.isMethod <;> simp [hook, hookRun, calls, Event.call?, Option.filter, hmethod]

theorem calls_hooks (view : RecordView) (context record : Value) :
    (hooks view context record).calls = (hookRuns view context record).map HookRun.call := by
  have hself := calls_hook view.typeName none context view.selfHook record
  have hcontext := calls_hook view.typeName (some context) context view.contextHook
  simp only [hooks, hookRuns, calls_andThen_onward, List.map_append, hself]
  cases hstop : (hook view.typeName none context view.selfHook record).stop with
  | none => rw [onward_of_passed hstop, onward_of_passed hstop, hcontext]
  | some stop => rw [onward_of_stopped hstop, onward_of_stopped hstop, List.map_nil]

end Visit

/-- The place that a step of a visit to a record comes to, if it comes to one. -/
def RecordStep.place? (writable : Bool) (record : Value) : RecordStep → Option Place
  | .descend field rules =>
    (record.fieldContent? field.name).map fun content =>
      ⟨record.isMutable || writable, field.declared, content, rules⟩
  | _ => none

namespace Place

/-- The value itself below an optional layer, if it is there. -/
def present (place : Place) : List Place :=
  if place.value.isNull then [] else [{ place with declared := place.resolved.element }]

def content (place : Place) : List Place :=
  match place.value with
  | .box .null => []
  | .box content => [⟨true, place.resolved.element, content, place.rules⟩]
  | _ => []

theorem content_of_box {place : Place} {inner : Value} (hvalue : place.value = .box inner)
    (hnull : inner.isNull = false) :
    place.content = [⟨true, place.resolved.element, inner, place.rules⟩] := by
  simp only [content, hvalue]
  cases inner <;> first | rfl | cases hnull

theorem mem_present {place next : Place} :
    next ∈ place.present ↔
      place.value.isNull = false ∧ next = { place with declared := place.resolved.element } := by
  unfold present
  cases place.value.isNull <;> simp

theorem mem_content {place next : Place} :
    next ∈ place.content ↔ ∃ inner, place.value = .box inner ∧ inner.isNull = false ∧
      next = ⟨true, place.resolved.element, inner, place.rules⟩ := by
  constructor
  · intro h
    unfold content at h
    split at h
    · cases h
    · rename_i inner hnull hvalue
      exact ⟨inner, hvalue, Value.isNull_of_ne_null hnull, List.mem_singleton.1 h⟩
    · cases h
  · rintro ⟨inner, hvalue, hnull, rfl⟩
    rw [content_of_box hvalue hnull]
    exact List.mem_singleton_self _

def items (place : Place) : List Place :=
  if place.value.isNull || place.value.isOversized then []
  else
    match place.rules.checkLength place.value Visit.sequenceKey, place.value.items? with
    | .ok remaining, some items =>
      items.mapIdx fun i item =>
        ⟨place.value.itemsWritable place.writable, place.resolved.item i, item, remaining⟩
    | _, _ => []

def entries (place : Place) : List Place :=
  match place.rules.checkLength place.value Visit.mappingKey, place.value with
  | .ok remaining, .mapping kind _ entries =>
    entries.map fun entry => ⟨kind.isMutable, place.resolved.element, entry.2, remaining⟩
  | _, _ => []

/-! ## Whether a visit gets as far as to the items or entries -/

/-- The sequence in a place is there and can be counted, and its length leaves so many rules for its items. -/
structure EntersItems (place : Place) (remaining : RuleSet) (items : List Value) : Prop where
  isNull : place.value.isNull = false
  isOversized : place.value.isOversized = false
  checkLength : place.rules.checkLength place.value Visit.sequenceKey = .ok remaining
  items? : place.value.items? = some items

structure EntersEntries (place : Place) (remaining : RuleSet) (kind : MappingKind) (derived : Option String)
    (entries : List (Value × Value)) : Prop where
  value_eq : place.value = .mapping kind derived entries
  checkLength : place.rules.checkLength place.value Visit.mappingKey = .ok remaining

namespace EntersItems

variable {place next : Place} {remaining : RuleSet} {items : List Value}

theorem items_eq (h : place.EntersItems remaining items) :
    place.items = items.mapIdx fun i item =>
      ⟨place.value.itemsWritable place.writable, place.resolved.item i, item, remaining⟩ := by
  simp [Place.items, h.isNull, h.isOversized, h.checkLength, h.items?]

theorem sequence_eq (h : place.EntersItems remaining items)
    (descend : Bool → Annotation → Value → RuleSet → Visit) :
    Visit.sequence descend place.writable place.resolved place.value place.rules =
      Visit.ofItems place.value (Visits.ofItems (fun i item =>
        descend (place.value.itemsWritable place.writable) (place.resolved.item i) item remaining) 0 items) := by
  simp only [Visit.sequence, h.isNull, h.isOversized, h.checkLength, h.items?, Bool.false_eq_true, if_false]

end EntersItems

namespace EntersEntries

variable {place next : Place} {remaining : RuleSet} {kind : MappingKind} {derived : Option String}
  {entries : List (Value × Value)}

theorem entries_eq (h : place.EntersEntries remaining kind derived entries) :
    place.entries = entries.map fun entry =>
      ⟨kind.isMutable, place.resolved.element, entry.2, remaining⟩ := by
  simp only [Place.entries, h.checkLength]
  rw [h.value_eq]

theorem mapping_eq (h : place.EntersEntries remaining kind derived entries)
    (descend : Bool → Annotation → Value → RuleSet → Visit) :
    let visits := Visits.ofEntries kind.isMutable
      (fun item => descend kind.isMutable place.resolved.element item remaining) entries
    Visit.mapping descend place.resolved place.value place.rules =
      ⟨(Value.mapping kind derived entries).withEntries visits.values, false, visits.events,
        visits.stop⟩ := by
  have hlength := h.checkLength
  rw [h.value_eq] at hlength ⊢
  simp only [Visit.mapping, hlength, Value.isNull, Bool.false_eq_true, if_false]

end EntersEntries

/-- A visit to a sequence gets to its items, or it is over at once, whatever is done at items. -/
theorem entersItems_or_idle (place : Place) :
    (∃ remaining items, place.EntersItems remaining items) ∨
      (place.items = [] ∧ ∃ stop, (place.value.isNull = false → stop ≠ none) ∧
        ∀ descend, Visit.sequence descend place.writable place.resolved place.value place.rules =
          ⟨place.value, false, [], stop⟩) := by
  unfold Visit.sequence
  cases hnull : place.value.isNull with
  | true =>
      refine .inr ⟨by simp [Place.items, hnull], place.rules.missingStop Visit.sequenceKey, nofun, fun _ => ?_⟩
      rw [Value.eq_null_of_isNull hnull]
      rfl
  | false =>
      cases hlength : place.rules.checkLength place.value Visit.sequenceKey with
      | error stop =>
          exact .inr ⟨by simp [Place.items, hlength], some stop, fun _ => Option.some_ne_none _, fun _ => rfl⟩
      | ok remaining =>
          cases hoversized : place.value.isOversized with
          | true =>
              exact .inr ⟨by simp [Place.items, hoversized], some (.fault .tooLong),
                fun _ => Option.some_ne_none _, fun _ => rfl⟩
          | false =>
              cases hitems : place.value.items? with
              | none =>
                  exact .inr ⟨by simp [Place.items, hitems],
                    some (.fault (.notIterable place.value.classOf.fullName)),
                    fun _ => Option.some_ne_none _, fun _ => rfl⟩
              | some items => exact .inl ⟨remaining, items, hnull, hoversized, hlength, hitems⟩

/-- A visit to a mapping gets to its entries, or it is over at once, whatever is done at entries. -/
theorem entersEntries_or_idle (place : Place) :
    (∃ remaining kind derived entries, place.EntersEntries remaining kind derived entries) ∨
      (place.entries = [] ∧ ∃ stop, (place.value.isNull = false → stop ≠ none) ∧
        ∀ descend, Visit.mapping descend place.resolved place.value place.rules =
          ⟨place.value, false, [], stop⟩) := by
  obtain ⟨writable, declared, value, rules⟩ := place
  unfold Visit.mapping
  cases hlength : rules.checkLength value Visit.mappingKey with
  | error stop =>
      have hnone : Place.entries ⟨writable, declared, value, rules⟩ = [] := by
        simp [Place.entries, hlength]
      cases value with
      | null => exact .inr ⟨hnone, rules.missingStop Visit.mappingKey, nofun, fun _ => rfl⟩
      | _ => exact .inr ⟨hnone, some stop, fun _ => Option.some_ne_none _, fun _ => rfl⟩
  | ok remaining =>
      cases value with
      | mapping kind derived entries => exact .inl ⟨remaining, kind, derived, entries, rfl, hlength⟩
      | null =>
          exact .inr ⟨by simp [Place.entries, hlength], rules.missingStop Visit.mappingKey, nofun, fun _ => rfl⟩
      | _ =>
          exact .inr ⟨by simp [Place.entries, hlength], some (.fault (.noAttribute _ "items")),
            fun _ => Option.some_ne_none _, fun _ => rfl⟩

theorem exists_of_mem_items {place next : Place} (h : next ∈ place.items) :
    ∃ remaining items, place.EntersItems remaining items ∧ ∃ i item, items[i]? = some item ∧
      next = ⟨place.value.itemsWritable place.writable, place.resolved.item i, item, remaining⟩ := by
  rcases place.entersItems_or_idle with ⟨remaining, items, henters⟩ | ⟨hnone, -⟩
  · rw [henters.items_eq] at h
    obtain ⟨i, hi, rfl⟩ := List.mem_mapIdx.1 h
    exact ⟨remaining, items, henters, i, _, List.getElem?_eq_getElem hi, rfl⟩
  · rw [hnone] at h
    cases h

theorem exists_of_mem_entries {place next : Place} (h : next ∈ place.entries) :
    ∃ remaining kind derived entries, place.EntersEntries remaining kind derived entries ∧
      ∃ entry ∈ entries, next = ⟨kind.isMutable, place.resolved.element, entry.2, remaining⟩ := by
  rcases place.entersEntries_or_idle with ⟨remaining, kind, derived, entries, henters⟩ | ⟨hnone, -⟩
  · rw [henters.entries_eq] at h
    obtain ⟨entry, hentry, rfl⟩ := List.mem_map.1 h
    exact ⟨remaining, kind, derived, entries, henters, entry, hentry, rfl⟩
  · rw [hnone] at h
    cases h

end Place

namespace Walk

/-- Places in order up to the first whose visit is stopped, that one included. -/
def reached (visit : Place → Visit) : List Place → List Place
  | [] => []
  | place :: places => place :: (visit place).onward fun _ => reached visit places

/-- The places that steps of a visit to a record come to, each as the steps before left it. -/
def stepPlaces (walk : Walk) (levels : Nat) (typeName : String) (writable : Bool) :
    List RecordStep → Value → List Place
  | [], _ => []
  | step :: plan, record =>
    (step.place? writable record).toList ++
      (Visit.step (walk.visit levels) walk.tagKey typeName writable record step).onward
        (stepPlaces walk levels typeName writable plan)

/-- The type of the record in a place, if a visit to the place gets as far as to its fields. -/
def entered? (walk : Walk) (place : Place) : Option RecordView :=
  if place.value.isNull || place.rules.required && (place.value.zeroFails || place.value.isZero) then none
  else walk.view? place.value.classOf

/-- The places that a visit to a place comes to, with so many levels below it, in order. -/
def placesBelow (walk : Walk) (levels : Nat) (place : Place) : List Place :=
  match walk.evaluator? place.resolved.category with
  | some .optional => place.present
  | some .reference => place.content
  | some .sequence => reached (walk.visitAt levels) place.items
  | some .mapping => reached (walk.visitAt levels) place.entries
  | some .record =>
    match walk.entered? place with
    | some view =>
      walk.stepPlaces levels view.typeName place.writable
        (RecordStep.all walk.tokenize view.fields place.rules) place.value
    | none => []
  | some (.scalar _) | none => []

/-- The runs of the hooks of the record in a place, on what the visits to its fields left. -/
def ownRuns (walk : Walk) (levels : Nat) (place : Place) : List HookRun :=
  match walk.evaluator? place.resolved.category with
  | some .record =>
    match walk.entered? place with
    | some view =>
      (Visit.steps (walk.visit levels) walk.tagKey view.typeName place.writable
        (RecordStep.all walk.tokenize view.fields place.rules) place.value).onward
          (Visit.hookRuns view walk.context)
    | none => []
  | _ => []

/-- The hooks that a walk runs from a place on, in order, each with its record as the hook finds it. -/
def hookRuns (walk : Walk) : Nat → Place → List HookRun
  | 0, _ => []
  | levels + 1, place =>
    (walk.placesBelow levels place).flatMap (walk.hookRuns levels) ++ walk.ownRuns levels place

variable {walk : Walk} {levels : Nat}

/-! ## The first of the places, and those that come after it -/

theorem mem_reached_cons {visit : Place → Visit} {place next : Place} {places : List Place} :
    next ∈ reached visit (place :: places) ↔
      next = place ∨ ((visit place).stop = none ∧ next ∈ reached visit places) := by
  rw [reached, List.mem_cons, Visit.mem_onward_iff]

theorem mem_stepPlaces_cons {typeName : String} {writable : Bool} {step : RecordStep}
    {plan : List RecordStep} {record : Value} {next : Place} :
    next ∈ walk.stepPlaces levels typeName writable (step :: plan) record ↔
      step.place? writable record = some next ∨
        ((Visit.step (walk.visit levels) walk.tagKey typeName writable record step).stop = none ∧
          next ∈ walk.stepPlaces levels typeName writable plan
            (Visit.step (walk.visit levels) walk.tagKey typeName writable record step).value) := by
  rw [stepPlaces, List.mem_append, Option.mem_toList, Visit.mem_onward_iff]

/-! ## The calls in the events are those of the list -/

theorem calls_scalar (kind : ScalarKind) (writable : Bool) (held : Value) (rules : RuleSet) :
    (kind.visit writable held rules).calls = [] := by
  unfold ScalarKind.visit
  split
  · rfl
  · split
    · split <;> rfl
    · rfl

theorem calls_reached_items (visit : Nat → Value → Place) (index : Nat) (items : List Value) :
    (Visits.ofItems (fun i item => walk.visitAt levels (visit i item)) index items).calls =
      (reached (walk.visitAt levels) (items.mapIdx fun i => visit (index + i))).flatMap fun next =>
        (walk.visitAt levels next).calls := by
  induction items generalizing index with
  | nil => rfl
  | cons item items ih =>
      simp only [Visits.mapIdx_cons_from, reached, List.flatMap_cons, Visits.ofItems]
      cases hstop : (walk.visitAt levels (visit index item)).stop with
      | none => simp only [calls_cons, Visit.onward_of_passed hstop, ih]
      | some stop =>
          simp only [Visit.onward_of_stopped hstop, List.flatMap_nil, List.append_nil]
          rfl

theorem calls_reached_entries (visit : Value → Place) (assigned : Bool) (entries : List (Value × Value)) :
    (Visits.ofEntries assigned (fun item => walk.visitAt levels (visit item)) entries).calls =
      (reached (walk.visitAt levels) (entries.map fun entry => visit entry.2)).flatMap fun next =>
        (walk.visitAt levels next).calls := by
  induction entries with
  | nil => rfl
  | cons entry entries ih =>
      obtain ⟨key, item⟩ := entry
      simp only [List.map_cons, reached, List.flatMap_cons, Visits.ofEntries]
      cases hstop : (walk.visitAt levels (visit item)).stop with
      | none => simp only [calls_cons, Visit.onward_of_passed hstop, ih]
      | some stop =>
          simp only [Visit.onward_of_stopped hstop, List.flatMap_nil, List.append_nil]
          rfl

theorem calls_step (typeName : String) (writable : Bool) (record : Value) (step : RecordStep) :
    (Visit.step (walk.visit levels) walk.tagKey typeName writable record step).calls =
      (step.place? writable record).toList.flatMap fun next => (walk.visitAt levels next).calls := by
  cases step with
  | descend field rules =>
      simp only [Visit.step, Visit.field, RecordStep.place?]
      cases record.fieldContent? field.name with
      | none => rfl
      | some content =>
          simp only [Option.map_some, Option.toList_some, List.flatMap_singleton]
          rfl
  | _ => rfl

theorem calls_steps (typeName : String) (writable : Bool) (plan : List RecordStep) (record : Value) :
    (Visit.steps (walk.visit levels) walk.tagKey typeName writable plan record).calls =
      (walk.stepPlaces levels typeName writable plan record).flatMap fun next =>
        (walk.visitAt levels next).calls := by
  induction plan generalizing record with
  | nil => rfl
  | cons step plan ih =>
      simp only [Visit.steps, stepPlaces, Visit.calls_andThen_onward, calls_step, List.flatMap_append, ih]
      cases hstop : (Visit.step (walk.visit levels) walk.tagKey typeName writable record step).stop with
      | none => simp only [Visit.onward_of_passed hstop]
      | some stop => simp only [Visit.onward_of_stopped hstop, List.flatMap_nil]

theorem calls_sequence (place : Place) :
    (Visit.sequence (walk.visit levels) place.writable place.resolved place.value place.rules).calls =
      (reached (walk.visitAt levels) place.items).flatMap fun next => (walk.visitAt levels next).calls := by
  rcases place.entersItems_or_idle with ⟨remaining, items, henters⟩ | ⟨hnone, stop, -, hidle⟩
  · have hcalls := @calls_reached_items walk levels (fun i item =>
      ⟨place.value.itemsWritable place.writable, place.resolved.item i, item, remaining⟩) 0 items
    simp only [Nat.zero_add] at hcalls
    rw [henters.sequence_eq, henters.items_eq, Visit.calls_ofItems]
    exact hcalls
  · rw [hidle, hnone]
    rfl

theorem calls_mapping (place : Place) :
    (Visit.mapping (walk.visit levels) place.resolved place.value place.rules).calls =
      (reached (walk.visitAt levels) place.entries).flatMap fun next => (walk.visitAt levels next).calls := by
  rcases place.entersEntries_or_idle with ⟨remaining, kind, derived, entries, henters⟩ | ⟨hnone, stop, -, hidle⟩
  · rw [henters.mapping_eq, henters.entries_eq]
    exact calls_reached_entries (fun item =>
      ⟨kind.isMutable, place.resolved.element, item, remaining⟩) kind.isMutable entries
  · rw [hidle, hnone]
    rfl

theorem view_of_entered {place : Place} {view : RecordView} (h : walk.entered? place = some view) :
    walk.view? place.value.classOf = some view := by
  unfold entered? at h
  split at h
  · cases h
  · exact h

/--
A visit to a record that gets to the fields goes through them and then runs the hooks, apart from events that
tell of no call; another one calls no hook, and is stopped unless the value is missing.
-/
theorem record_of_entered (place : Place) :
    let visit := Visit.record (walk.visit levels) walk.tokenize walk.tagKey walk.context walk.view?
      place.writable place.value place.rules
    match walk.entered? place with
    | some view => ∃ events : List Event, events.filterMap Event.call? = [] ∧
        visit = (Visit.presentRecord (walk.visit levels) walk.tokenize walk.tagKey walk.context view
          place.writable place.value place.rules).after events
    | none => visit.calls = [] ∧ (place.value.isNull = false → visit.stop ≠ none) := by
  have hevents : (if place.rules.required then Visit.zeroEvents place.value else []).filterMap
      Event.call? = [] := by
    split
    · exact Visit.calls_zeroEvents place.value
    · rfl
  simp only [Visit.record, entered?]
  cases hnull : place.value.isNull with
  | true => simp [Visit.calls]
  | false =>
      cases hfails : place.rules.required && place.value.zeroFails with
      | true => simp_all [Visit.calls, Visit.after, Visit.abort, Visit.halt]
      | false =>
          cases hzero : place.rules.required && place.value.isZero with
          | true =>
              rw [Bool.and_or_distrib_left, hfails, hzero]
              simp [Visit.calls, Visit.after, Visit.refuse, Visit.halt, hevents]
          | false =>
              rw [Bool.and_or_distrib_left, hfails, hzero]
              cases walk.view? place.value.classOf with
              | some view => exact ⟨_, hevents, rfl⟩
              | none => simp [Visit.calls, Visit.after, Visit.abort, Visit.halt, hevents]

theorem visitAt_of_served {place : Place} {evaluator : Evaluator}
    (hserved : walk.evaluator? place.resolved.category = some evaluator) :
    walk.visitAt (levels + 1) place = walk.evaluate (walk.visit levels) evaluator place.writable
      place.resolved place.value place.rules := by
  have hresolved : walk.evaluator? (place.value.resolve place.declared).category = some evaluator := hserved
  simp only [visitAt, visit, hresolved]
  rfl

/-- A visit calls the hooks that the visits it calls for do, and then those of its own record. -/
theorem calls_visitAt_succ (place : Place) :
    (walk.visitAt (levels + 1) place).calls =
      ((walk.placesBelow levels place).flatMap fun next => (walk.visitAt levels next).calls) ++
        (walk.ownRuns levels place).map HookRun.call := by
  unfold placesBelow ownRuns
  cases hserved : walk.evaluator? place.resolved.category with
  | none =>
      have hskipped : walk.evaluator? (place.value.resolve place.declared).category = none := hserved
      simp only [visitAt, visit, hskipped]
      rfl
  | some evaluator =>
      rw [visitAt_of_served hserved]
      cases evaluator with
      | optional =>
          simp only [evaluate, Visit.optional, Place.present, List.map_nil, List.append_nil]
          cases place.value.isNull with
          | true => rfl
          | false => exact (List.append_nil _).symm
      | reference =>
          simp only [evaluate, List.map_nil, List.append_nil]
          cases hvalue : place.value with
          | box content =>
              cases hnull : content.isNull with
              | true =>
                  obtain rfl := Value.eq_null_of_isNull hnull
                  simp only [Visit.reference, Place.content, hvalue]
                  split <;> rfl
              | false =>
                  rw [Visit.reference_present hnull, Place.content_of_box hvalue hnull]
                  exact (List.append_nil _).symm
          | _ =>
              simp only [Visit.reference, Place.content, hvalue]
              rfl
      | scalar kind => exact calls_scalar kind _ _ _
      | record =>
          have hvisit := @record_of_entered walk levels place
          cases hentered : walk.entered? place with
          | none =>
              simp only [hentered] at hvisit
              exact hvisit.1
          | some view =>
              simp only [hentered] at hvisit
              obtain ⟨events, hevents, hvisit⟩ := hvisit
              simp only [evaluate, hvisit, Visit.calls_after, hevents, List.nil_append, Visit.presentRecord,
                Visit.calls_andThen_onward, calls_steps, Visit.calls_hooks, Visit.map_onward]
      | sequence =>
          simp only [List.map_nil, List.append_nil]
          exact calls_sequence place
      | mapping =>
          simp only [List.map_nil, List.append_nil]
          exact calls_mapping place

theorem calls_visitAt (levels : Nat) (place : Place) :
    (walk.visitAt levels place).calls = (walk.hookRuns levels place).map HookRun.call := by
  induction levels generalizing place with
  | zero => rfl
  | succ levels ih =>
      simp only [calls_visitAt_succ, hookRuns, List.map_append, List.map_flatMap, ih]

end Walk

end RuleCheck
