import RuleCheck.Proofs.Value.Paths
import RuleCheck.Proofs.Visit.Lengths
import RuleCheck.Proofs.Visit.Parts
import RuleCheck.Proofs.Walk.Calls
import RuleCheck.Proofs.Walk.Quiet

/-! # Positions inside a place

What a place makes of the values inside it: each of them has its own annotation, rules, and leave to be
written.  Fields that are visited with their own rules only are visited as they were found, so the place that
such a visit comes to is the one of the position.
-/

namespace RuleCheck

namespace RecordStep

def target? : RecordStep → Option (Field × RuleSet)
  | .descend field rules => some (field, rules)
  | .readFields | .readRules _ | .unknown _ => none

/-- Where nothing is redirected or marked, every field is visited once, with its own rules. -/
theorem targets_all {tokenize : String → RuleSet} {fields : List Field} {rules : RuleSet}
    (htargets : rules.targets = [])
    (hmain : ∀ field ∈ fields, (tokenize field.rules).has RuleSet.mainToken = false) :
    (all tokenize fields rules).filterMap target? =
      (Visit.included tokenize fields).map fun field => (field, tokenize field.rules) := by
  have hfields : (fields.flatMap (ofField tokenize rules)).filterMap target? =
      (Visit.included tokenize fields).map fun field => (field, tokenize field.rules) := by
    induction fields with
    | nil => rfl
    | cons field fields ih =>
        have hrest := ih fun other hother => hmain other (List.mem_cons_of_mem _ hother)
        have hown := hmain field List.mem_cons_self
        rw [List.flatMap_cons, List.filterMap_append, hrest]
        cases hexcluded : (tokenize field.rules).excluded <;>
          simp [ofField, Visit.included, List.filterMap_cons, target?, hexcluded, hown]
  simpa [all, htargets, List.filterMap_cons, target?] using hfields

theorem split_of_all {tokenize : String → RuleSet} {fields : List Field} {rules own : RuleSet}
    {field : Field} {before rest : List RecordStep} (hdistinct : (fields.map Field.name).Nodup)
    (htargets : rules.targets = [])
    (hmain : ∀ field ∈ fields, (tokenize field.rules).has RuleSet.mainToken = false)
    (hplan : all tokenize fields rules = before ++ .descend field own :: rest) :
    field ∈ Visit.included tokenize fields ∧ own = tokenize field.rules ∧
      ∀ other rules', .descend other rules' ∈ before → other.name ≠ field.name := by
  have hsplit : (Visit.included tokenize fields).map (fun field => (field, tokenize field.rules)) =
      before.filterMap target? ++ (field, own) :: rest.filterMap target? := by
    rw [← targets_all htargets hmain, hplan, List.filterMap_append]
    rfl
  have hmem : (field, own) ∈
      (Visit.included tokenize fields).map fun field => (field, tokenize field.rules) := by
    rw [hsplit]
    simp
  obtain ⟨found, hfound, heq⟩ := List.mem_map.1 hmem
  cases heq
  refine ⟨hfound, rfl, fun other rules' hother hname => ?_⟩
  have hnames : ((Visit.included tokenize fields).map Field.name).Nodup :=
    (List.filter_sublist.map Field.name).nodup hdistinct
  have htargetNames := congrArg (List.map fun target : Field × RuleSet => target.1.name) hsplit
  rw [List.map_map, List.map_append, List.map_cons] at htargetNames
  have hnodup : (List.map (fun target : Field × RuleSet => target.1.name)
      (before.filterMap target?) ++ field.name ::
        List.map (fun target : Field × RuleSet => target.1.name) (rest.filterMap target?)).Nodup :=
    htargetNames ▸ hnames
  have hbefore : other.name ∈
      List.map (fun target : Field × RuleSet => target.1.name) (before.filterMap target?) :=
    List.mem_map.2 ⟨(other, rules'), List.mem_filterMap.2 ⟨_, hother, rfl⟩, rfl⟩
  exact (List.nodup_append.1 hnodup).2.2 _ hbefore _ List.mem_cons_self hname

end RecordStep

namespace Walk

/--
A place directly inside another one, with the segment that leads there if there is one: a value as it is found
there, with the annotation, the rules and the leave to be written that its position gives it.
-/
inductive Below (walk : Walk) (place : Place) : List String → Place → Prop
  | present (hcategory : place.resolved.category = .optional)
      (hnull : place.value.isNull = false) :
      Below walk place [] { place with declared := place.resolved.element }
  | content {content : Value} (hcategory : place.resolved.category = .reference)
      (hvalue : place.value = .box content) :
      Below walk place [] ⟨true, place.resolved.element, content, place.rules⟩
  | item {items : List Value} {index : Nat} {item : Value}
      (hcategory : place.resolved.category = .list) (hitems : place.value.items? = some items)
      (hitem : items[index]? = some item) :
      Below walk place [Path.index index] ⟨place.value.itemsWritable place.writable,
        place.resolved.item index, item, place.rules.withoutKey Visit.sequenceKey⟩
  | entry {kind : MappingKind} {derived : Option String} {entries : List (Value × Value)}
      {key item : Value} (hcategory : place.resolved.category = .map)
      (hvalue : place.value = .mapping kind derived entries) (hentry : (key, item) ∈ entries) :
      Below walk place [Path.key key.keyText]
        ⟨kind.isMutable, place.resolved.element, item, place.rules.withoutKey Visit.mappingKey⟩
  | field {view : RecordView} {field : Field} {content : Value}
      (hcategory : place.resolved.category = .record)
      (hview : walk.view? place.value.classOf = some view)
      (hfield : field ∈ Visit.included walk.tokenize view.fields)
      (hcontent : place.value.fieldContent? field.name = some content) :
      Below walk place [field.name] ⟨place.value.isMutable || place.writable, field.declared,
        content, walk.tokenize field.rules⟩

/-- A place at any depth inside another one, with the path that leads there. -/
inductive Position (walk : Walk) : Place → List String → Place → Prop
  | here (place : Place) : Position walk place [] place
  | inside {place next last : Place} {segments path : List String}
      (hbelow : walk.Below place segments next) (hrest : Position walk next path last) :
      Position walk place (segments ++ path) last

/--
A place that a visit calls for, with the segment that leads there if there is one.  A field of a record is visited
as the steps before left it.
-/
inductive CallsUnder (walk : Walk) (levels : Nat) (place : Place) : List String → Place → Prop
  | below {segments : List String} {next : Place} (hbelow : walk.Below place segments next) :
      CallsUnder walk levels place segments next
  | field {view : RecordView} {before rest : List RecordStep} {field : Field} {rules : RuleSet}
      {content : Value} (hcategory : place.resolved.category = .record)
      (hview : walk.view? place.value.classOf = some view)
      (hplan : RecordStep.all walk.tokenize view.fields place.rules =
        before ++ .descend field rules :: rest)
      (hbefore : (Visit.steps (walk.visit levels) walk.tagKey view.typeName place.writable before
        place.value).stop = none)
      (hcontent : (Visit.steps (walk.visit levels) walk.tagKey view.typeName place.writable before
        place.value).value.fieldContent? field.name = some content) :
      CallsUnder walk levels place [field.name]
        ⟨(Visit.steps (walk.visit levels) walk.tagKey view.typeName place.writable before
          place.value).value.isMutable || place.writable, field.declared, content, rules⟩

variable {walk : Walk}

/-! ## Paths of positions -/

theorem Below.leads {place next : Place} {segments path : List String} {target : Value}
    (hbelow : walk.Below place segments next) (h : next.value.Leads walk.view? path target) :
    place.value.Leads walk.view? (segments ++ path) target := by
  cases hbelow with
  | present _ _ => exact h
  | content _ hvalue =>
      rw [hvalue]
      exact .step (.content _) h
  | item hcategory hitems hitem =>
      have hlist := Value.fits_resolve place.declared (Value.isNull_of_items hitems)
      exact .step (.item (hcategory ▸ hlist) hitems hitem) h
  | entry _ hvalue hentry =>
      rw [hvalue]
      exact .step (.entry hentry) h
  | field _ hview hfield hcontent =>
      exact .step (.field hview (List.mem_filter.1 hfield).1 hcontent) h

theorem Position.leads {place last : Place} {path : List String}
    (h : walk.Position place path last) : place.value.Leads walk.view? path last.value := by
  induction h with
  | here place => exact .here place.value
  | inside hbelow _ ih => exact hbelow.leads ih

/-- A visit that passes leaves nothing that a path leads to only afterwards, if no hook assigns a field. -/
theorem kept_covers (hassign : walk.AssignsNothing) :
    walk.Kept fun _ _ old new => old.Covers walk.view? new where
  refl _ value := .refl value
  trans hfirst hsecond := hfirst.trans hsecond
  scalar _ _ _ _ := .ofScalar _ _
  present _ _ h := h
  content _ h := h.box
  items hcategory hitems _ h := .rebuild hcategory hitems h
  entries _ _ h := .withEntries h _ _
  field _ _ _ hcontent h := .withField hcontent h
  assign _ hview haction hassigned _ := hassign.elim hview haction hassigned

theorem CallsUnder.isPath (hregistry : walk.evaluator? = Registry.standard.get?)
    (hassign : walk.AssignsNothing) {levels : Nat} {place next : Place}
    {segments path : List String} (hcall : walk.CallsUnder levels place segments next)
    (h : next.value.IsPath walk.view? path) : place.value.IsPath walk.view? (segments ++ path) := by
  cases hcall with
  | below hbelow =>
      obtain ⟨target, hleads⟩ := h
      exact ⟨target, hbelow.leads hleads⟩
  | @field view before rest field rules content hcategory hview hplan hbefore hcontent =>
      obtain ⟨hfield, hsteps⟩ :=
        (kept_covers hassign).onTheWay_before hregistry hcategory hview hplan hbefore
      -- the path is one of the record as the steps before left it, and so of the record as it was
      refine hsteps.kept _ (h.step (.field ?_ hfield hcontent))
      rw [hsteps.classOf, hview]

/-! ## Visits with the rules of the fields only -/

/-- A place that is called for is the one of its position, if nothing is redirected or marked. -/
theorem CallsUnder.below_of_ownRulesOnly (hdistinct : walk.DistinctFields) {levels : Nat}
    {place next : Place} {segments : List String} (htargets : place.rules.targets = [])
    (hown : walk.OwnRulesOnly place.value) (hcall : walk.CallsUnder levels place segments next) :
    walk.Below place segments next := by
  cases hcall with
  | below hbelow => exact hbelow
  | @field view before rest field rules content hcategory hview hplan hbefore hcontent =>
      obtain ⟨hfield, rfl, hothers⟩ := RecordStep.split_of_all (hdistinct _ view hview) htargets
        (fun field hfield => (hown _ (.here _) view hview field hfield).1) hplan
      rw [Visit.fieldContent?_of_steps hothers hbefore] at hcontent
      rw [Visit.isMutable_of_steps hbefore]
      exact .field hcategory hview hfield hcontent

/-- Below a place without redirected rules and marked fields there are none either. -/
theorem Below.ownRulesOnly
    (hrecords : ∀ base view, walk.view? base = some view → base.isRecord = true)
    {place next : Place} {segments : List String} (htargets : place.rules.targets = [])
    (hown : walk.OwnRulesOnly place.value) (hbelow : walk.Below place segments next) :
    next.rules.targets = [] ∧ walk.OwnRulesOnly next.value := by
  cases hbelow with
  | present _ _ => exact ⟨htargets, hown⟩
  | content _ hvalue =>
      rw [hvalue] at hown
      exact ⟨htargets, hown.child (by simp [Value.children])⟩
  | @item items index item hcategory hitems hitem =>
      exact ⟨RuleSet.targets_of_subset (fun _ h => (List.mem_filter.1 h).1) htargets,
        hown.item hrecords (Value.isNull_of_items hitems) hcategory hitems (List.mem_of_getElem? hitem)⟩
  | entry _ hvalue hentry =>
      rw [hvalue] at hown
      exact ⟨RuleSet.targets_of_subset (fun _ h => (List.mem_filter.1 h).1) htargets,
        hown.child (List.mem_map.2 ⟨_, hentry, rfl⟩)⟩
  | field _ hview hfield hcontent =>
      exact ⟨(hown _ (.here _) _ hview _ (List.mem_filter.1 hfield).1).2,
        hown.child (Value.mem_children_of_field hcontent)⟩

end Walk

end RuleCheck
