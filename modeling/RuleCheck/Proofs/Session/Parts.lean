import RuleCheck.Proofs.Category.Present
import RuleCheck.Proofs.Session.Budget
import RuleCheck.Proofs.Text.Joining
import RuleCheck.Proofs.Visit.Parts
import RuleCheck.Proofs.Walk.Quiet

/-! # Calls for composite values

A call for a list, a mapping or a record that can be written does what calls for its parts do, one after
another up to the first that is stopped, and so does a call for several values.  Each of the calls for a part
may be made in a session of its own.
-/

namespace RuleCheck

namespace Schema

variable {schema : Schema} (config : Config) (context : Value)

theorem visit_below (hassign : schema.AssignsNothing) (place next : Place) {levels : Nat}
    (hlevels : Walk.budget schema config.tagKey place.declared place.value = levels + 1)
    (hneed : Walk.need (max place.declared.size (schema.annotationSize config.tagKey)) next <
      Walk.need (max place.declared.size (schema.annotationSize config.tagKey)) place)
    (hsize : next.declared.size ≤ max place.declared.size (schema.annotationSize config.tagKey)) :
    (schema.walk ⟨config, .standard⟩ context).visitAt levels next =
      schema.visit ⟨config, .standard⟩ context next.writable next.declared next.value next.rules := by
  apply visit_eq_of_need config context hassign next hsize (Nat.le_max_right _ _)
  have hbudget := @need_le_budget schema config.tagKey place
  omega

/-- A visit is that of an evaluator, with one level less for what it descends to. -/
theorem visit_eq_evaluate {value : Value} {declared : Annotation} {evaluator : Evaluator}
    (hevaluator : Registry.standard.get? (value.resolve declared).category = some evaluator)
    (writable : Bool) (rules : RuleSet) :
    ∃ levels, Walk.budget schema config.tagKey declared value = levels + 1 ∧
      schema.visit ⟨config, .standard⟩ context writable declared value rules =
        (schema.walk ⟨config, .standard⟩ context).evaluate
          ((schema.walk ⟨config, .standard⟩ context).visit levels) evaluator writable
          (value.resolve declared) value rules := by
  refine ⟨_, rfl, ?_⟩
  have hstandard : (schema.walk ⟨config, .standard⟩ context).evaluator?
      (value.resolve declared).category = some evaluator := hevaluator
  simp only [visit, Walk.budget, Walk.visit, hstandard]

theorem visit_called (hassign : schema.AssignsNothing) {place next : Place} {levels : Nat}
    (hlevels : Walk.budget schema config.tagKey place.declared place.value = levels + 1)
    (hcalls : (schema.walk ⟨config, .standard⟩ context).Calls levels place next) :
    (schema.walk ⟨config, .standard⟩ context).visitAt levels next =
      schema.visit ⟨config, .standard⟩ context next.writable next.declared next.value next.rules := by
  obtain ⟨hneed, hsize⟩ := hcalls.need_lt (schema.walk_registry config context)
    (walk_assignsNothing config context hassign)
    (walk_fieldsBounded config context (Nat.le_max_right place.declared.size _)) (Nat.le_max_left _ _)
  exact visit_below config context hassign place next hlevels hneed hsize

theorem visit_layer (hassign : schema.AssignsNothing) {value : Value} (hnull : value.isNull = false)
    {declared : Annotation} (hcategory : (value.resolve declared).category = .optional) (writable : Bool)
    (rules : RuleSet) :
    schema.visit ⟨config, .standard⟩ context writable declared value rules =
      schema.visit ⟨config, .standard⟩ context writable (value.resolve declared).element value rules := by
  have hevaluator : Registry.standard.get? (value.resolve declared).category = some .optional := by
    rw [hcategory]
    rfl
  obtain ⟨levels, hlevels, hlayer⟩ :=
    @visit_eq_evaluate schema config context value declared .optional hevaluator writable rules
  rw [hlayer]
  simp only [Walk.evaluate, Visit.optional, hnull, Bool.false_eq_true, if_false]
  exact @visit_called schema config context hassign ⟨writable, declared, value, rules⟩ _ levels hlevels
    (.present hcategory hnull)

/-- A box with something in it is visited as its content would be in a place that can be written. -/
theorem visit_content (hassign : schema.AssignsNothing) {content : Value} (hnull : content.isNull = false)
    {declared : Annotation} (hcategory : ((Value.box content).resolve declared).category = .reference)
    (writable : Bool) (rules : RuleSet) :
    let inner := schema.visit ⟨config, .standard⟩ context true ((Value.box content).resolve declared).element
      content rules
    schema.visit ⟨config, .standard⟩ context writable declared (.box content) rules =
      ⟨.box inner.value, false, inner.events, inner.stop⟩ := by
  intro inner
  have hevaluator : Registry.standard.get? ((Value.box content).resolve declared).category =
      some .reference := by
    rw [hcategory]
    rfl
  obtain ⟨levels, hlevels, hbox⟩ :=
    @visit_eq_evaluate schema config context (.box content) declared .reference hevaluator writable rules
  have hinner : (schema.walk ⟨config, .standard⟩ context).visit levels true
      ((Value.box content).resolve declared).element content rules = inner :=
    @visit_called schema config context hassign ⟨writable, declared, .box content, rules⟩ _ levels hlevels
      (.content hcategory rfl hnull)
  simp only [hbox, Walk.evaluate, Visit.reference_present hnull, hinner]

/-- A value that is there is visited by what is declared below the optional layers. -/
theorem visit_present (hassign : schema.AssignsNothing) {value : Value} (hnull : value.isNull = false)
    (writable : Bool) (declared : Annotation) (rules : RuleSet) :
    ∃ inner, value.resolve inner = value.resolvePresent declared ∧
      schema.visit ⟨config, .standard⟩ context writable declared value rules =
        schema.visit ⟨config, .standard⟩ context writable inner value rules := by
  fun_induction Value.resolvePresent value declared with
  | case2 declared h => exact ⟨declared, rfl, rfl⟩
  | case1 declared h ih =>
      obtain ⟨inner, hresolved, hvisit⟩ := ih
      exact ⟨inner, hresolved, (visit_layer config context hassign hnull h.2 writable rules).trans hvisit⟩

/--
The visit to a value that is there is that of one evaluator, and what this one descends to inside of the value
is visited as in a call of its own.
-/
theorem visit_inside (hassign : schema.AssignsNothing) {value : Value} (hnull : value.isNull = false)
    {declared : Annotation} {evaluator : Evaluator}
    (hevaluator : Registry.standard.get? (value.resolvePresent declared).category = some evaluator)
    (writable : Bool) (rules : RuleSet) :
    ∃ inner descend, value.resolve inner = value.resolvePresent declared ∧
      schema.visit ⟨config, .standard⟩ context writable declared value rules =
        (schema.walk ⟨config, .standard⟩ context).evaluate descend evaluator writable
          (value.resolvePresent declared) value rules ∧
      ∀ next : Place, next.value.depth < value.depth →
        next.declared.size ≤ max inner.size (schema.annotationSize config.tagKey) →
        descend next.writable next.declared next.value next.rules =
          schema.visit ⟨config, .standard⟩ context next.writable next.declared next.value next.rules := by
  obtain ⟨inner, hresolved, hpresent⟩ := visit_present config context hassign hnull writable declared rules
  rw [← hresolved] at hevaluator ⊢
  obtain ⟨levels, hlevels, hvisit⟩ :=
    @visit_eq_evaluate schema config context value inner evaluator hevaluator writable rules
  refine ⟨inner, _, rfl, hpresent.trans hvisit, fun next hdepth hsize => ?_⟩
  let place : Place := ⟨writable, inner, value, rules⟩
  apply visit_below config context hassign place next hlevels _ hsize
  exact Walk.need_lt_of_depth hdepth hsize

/-- The visit to a list whose length passes goes through its items in turn. -/
theorem visit_list (hassign : schema.AssignsNothing) {kind : SequenceKind} (hkind : kind.isMutable = true)
    {derived : Option String} {items : List Value} {rules remaining : RuleSet}
    (hremaining : rules.checkLength (.sequence kind derived items) Visit.sequenceKey = .ok remaining)
    (writable : Bool) (declared : Annotation) :
    let list := Value.sequence kind derived items
    let visit := schema.visit ⟨config, .standard⟩ context writable declared list rules
    ∃ places, visit.value = .sequence kind derived places ∧
      FailFast (items.mapIdx (Visits.itemPart fun i item =>
        schema.visit ⟨config, .standard⟩ context true ((list.resolvePresent declared).item i) item
          remaining)) none places visit.stop := by
  intro list visit
  have hnull : list.isNull = false := rfl
  have hevaluator : Registry.standard.get? (list.resolvePresent declared).category =
      some .sequence := by
    rw [Value.category_sequence]
    rfl
  obtain ⟨inner, descend, hresolved, hvisit, hinside⟩ :=
    visit_inside config context hassign hnull hevaluator writable rules
  have hparts : items.mapIdx (Visits.itemPart fun i item =>
        descend true ((list.resolvePresent declared).item i) item remaining) =
      items.mapIdx (Visits.itemPart fun i item =>
        schema.visit ⟨config, .standard⟩ context true ((list.resolvePresent declared).item i) item
          remaining) := by
    rw [List.mapIdx_eq_mapIdx_iff, ← hresolved]
    intro i hi
    have hitem : descend true ((list.resolve inner).item i) items[i] remaining =
        schema.visit ⟨config, .standard⟩ context true ((list.resolve inner).item i) items[i]
          remaining := by
      apply hinside ⟨true, (list.resolve inner).item i, items[i], remaining⟩
      · have hdepth := Value.depth_le_itemsDepth (List.getElem_mem hi)
        simp only [list, Value.depth]
        omega
      · have hsize := (Value.bounded_resolve list inner).item inner.size_pos i
        exact Nat.le_trans hsize (Nat.le_max_left _ _)
    simp only [Visits.itemPart, hitem]
  rw [← hparts, show visit = _ from hvisit]
  exact Visit.sequence_failFast hkind (list.resolvePresent declared) hremaining

/-- The visit to a mapping whose length passes goes through its entries in turn. -/
theorem visit_mapping (hassign : schema.AssignsNothing) {kind : MappingKind} (hkind : kind.isMutable = true)
    {derived : Option String} {entries : List (Value × Value)} {rules remaining : RuleSet}
    (hremaining : rules.checkLength (.mapping kind derived entries) Visit.mappingKey = .ok remaining)
    (writable : Bool) (declared : Annotation) :
    let mapping := Value.mapping kind derived entries
    let visit := schema.visit ⟨config, .standard⟩ context writable declared mapping rules
    ∃ places, visit.value = mapping.withEntries places ∧
      FailFast (entries.map (Visits.entryPart fun item =>
        schema.visit ⟨config, .standard⟩ context true (mapping.resolvePresent declared).element item
          remaining)) none places visit.stop := by
  intro mapping visit
  have hnull : mapping.isNull = false := rfl
  have hevaluator : Registry.standard.get? (mapping.resolvePresent declared).category =
      some .mapping := by
    rw [Value.category_mapping]
    rfl
  obtain ⟨inner, descend, hresolved, hvisit, hinside⟩ :=
    visit_inside config context hassign hnull hevaluator writable rules
  have hparts : entries.map (Visits.entryPart fun item =>
        descend true (mapping.resolvePresent declared).element item remaining) =
      entries.map (Visits.entryPart fun item =>
        schema.visit ⟨config, .standard⟩ context true (mapping.resolvePresent declared).element item
          remaining) := by
    rw [← hresolved]
    apply List.map_congr_left
    intro entry hentry
    have hitem : descend true (mapping.resolve inner).element entry.2 remaining =
        schema.visit ⟨config, .standard⟩ context true (mapping.resolve inner).element entry.2
          remaining := by
      apply hinside ⟨true, (mapping.resolve inner).element, entry.2, remaining⟩
      · have hdepth := Value.depth_le_itemsDepth (List.mem_map_of_mem (f := Prod.snd) hentry)
        have hvalues := Value.itemsDepth_map_snd_le entries
        simp only [mapping, Value.depth]
        omega
      · exact Nat.le_trans (Value.bounded_resolve mapping inner).element (Nat.le_max_left _ _)
    simp only [Visits.entryPart, hitem]
  rw [← hparts, show visit = _ from hvisit]
  exact Visit.mapping_failFast hkind (mapping.resolvePresent declared) hremaining

/--
The visit to a record that can be written goes through its fields in turn, if nothing is redirected and what
its rules ask of the whole record holds; then the hooks decide.
-/
theorem visit_record (hassign : schema.AssignsNothing) (hdistinct : schema.DistinctNames) {value : Value}
    (hmutable : value.isMutable = true) {declared : Annotation}
    (hcategory : (value.resolvePresent declared).category = .record) {view : RecordView}
    (hview : schema.view? config.tagKey value.classOf = some view) {rules : RuleSet}
    (htargets : rules.targets = [])
    (hmain : ∀ field ∈ view.fields, (RuleSet.parse field.rules).has RuleSet.mainToken = false)
    (hrequired : rules.required = true → value.zeroFails = false ∧ value.isZero = false)
    (writable : Bool) :
    let visit := schema.visit ⟨config, .standard⟩ context writable declared value rules
    let fields := Visit.included .parse view.fields
    FailFast (fields.map (Visit.fieldPart (schema.visit ⟨config, .standard⟩ context) .parse true value))
        (Visit.hooks view context visit.value).stop
        (fields.map fun field => visit.value.fieldContent? field.name) visit.stop ∧
      ∀ name, (∀ field ∈ fields, field.name ≠ name) →
        visit.value.fieldContent? name = value.fieldContent? name := by
  intro visit fields
  have hnull : value.isNull = false := by
    cases value <;> first | rfl | cases hmutable
  have hevaluator : Registry.standard.get? (value.resolvePresent declared).category = some .record := by
    rw [hcategory]
    rfl
  obtain ⟨inner, descend, -, hvisit, hinside⟩ :=
    visit_inside config context hassign hnull hevaluator writable rules
  have hparts : fields.map (Visit.fieldPart descend .parse writable value) =
      fields.map (Visit.fieldPart (schema.visit ⟨config, .standard⟩ context) .parse true value) := by
    apply List.map_congr_left
    intro field hfield
    unfold Visit.fieldPart
    cases hcontent : value.fieldContent? field.name with
    | none => rfl
    | some content =>
        have hown : descend true field.declared content (.parse field.rules) =
            schema.visit ⟨config, .standard⟩ context true field.declared content
              (.parse field.rules) := by
          apply hinside ⟨true, field.declared, content, .parse field.rules⟩
          · exact Value.depth_lt_of_field hcontent
          · have hsize := walk_fieldsBounded config context (Nat.le_refl _) _ view hview field
              (List.mem_filter.1 hfield).1
            exact Nat.le_trans hsize (Nat.le_max_right _ _)
        simp only [hmutable, Bool.true_or, hown]
  rw [← hparts, show visit = _ from hvisit]
  exact Visit.record_failFast hnull hview (walk_distinctFields config context hdistinct _ view hview)
    htargets hmain hrequired
    (Walk.hooks_value_of_assignsNothing (walk_assignsNothing config context hassign) hview)

/-- A value that can be written is visited alike whether it can be exchanged or not, if nothing is declared. -/
theorem visit_of_isMutable {value : Value} (hmutable : value.isMutable = true) (rules : RuleSet) :
    schema.visit ⟨config, .standard⟩ context false .absent value rules =
      schema.visit ⟨config, .standard⟩ context true .absent value rules := by
  have hevaluate (evaluator : Evaluator)
      (hevaluator : Registry.standard.get? (value.resolve .absent).category = some evaluator)
      (hsame : ∀ descend, (schema.walk ⟨config, .standard⟩ context).evaluate descend evaluator false
          (value.resolve .absent) value rules =
        (schema.walk ⟨config, .standard⟩ context).evaluate descend evaluator true
          (value.resolve .absent) value rules) :
      schema.visit ⟨config, .standard⟩ context false .absent value rules =
        schema.visit ⟨config, .standard⟩ context true .absent value rules := by
    obtain ⟨levels, hlevels, hfalse⟩ :=
      @visit_eq_evaluate schema config context value .absent evaluator hevaluator false rules
    obtain ⟨others, hothers, htrue⟩ :=
      @visit_eq_evaluate schema config context value .absent evaluator hevaluator true rules
    have hequal : levels = others := by omega
    rw [hfalse, htrue, hequal, hsame]
  cases value with
  | sequence kind derived items =>
      apply hevaluate .sequence
      · cases kind <;> cases derived <;> rfl
      · cases kind <;> first | exact fun _ => rfl | cases hmutable
  | mapping kind derived entries =>
      apply hevaluate .mapping
      · cases kind <;> cases derived <;> rfl
      · exact fun _ => rfl
  | box content => exact hevaluate .reference rfl fun _ => rfl
  | record head slots =>
      apply hevaluate .record rfl
      intro descend
      simp only [Walk.evaluate, Visit.record, Visit.presentRecord, Visit.steps_of_isMutable hmutable]
  | _ => cases hmutable

end Schema

namespace Session

variable (config : Config) (alone : Nat → Session) (context : Value)

/-- Several values as parts of one call, each as a call for it alone ends. -/
def valueParts (values : List Value) : List (Part (List Value)) :=
  values.mapIdx fun i value =>
    let (states, stop) := (validate ⟨config, .standard⟩ [value] (alone i)).1
    ⟨[value], states, states, stop⟩

/-- The items of a list as parts, each as a call for it alone ends. -/
def itemParts (resolved : Resolved) (remaining : RuleSet) (items : List Value) : List (Part Value) :=
  items.mapIdx fun i item =>
    let own := ((alone i).validateValue ⟨config, .standard⟩ item remaining.text (resolved.item i)
      context).1
    ⟨item, own.value, own.value, own.stop.map (Stop.under (Path.index i))⟩

/--
The values of the entries of a mapping as parts, each as a call for it alone ends.  If that call is stopped,
the entry still holds its old object, as the call left it.
-/
def entryParts (resolved : Resolved) (remaining : RuleSet) (entries : List (Value × Value)) :
    List (Part Value) :=
  entries.mapIdx fun i entry =>
    let own := ((alone i).validateValue ⟨config, .standard⟩ entry.2 remaining.text resolved.element
      context).1
    ⟨entry.2, own.value, own.state, own.stop.map (Stop.under (Path.key entry.1.keyText))⟩

/-- Fields of a record as parts, each as a call for it alone ends; a missing one cannot be asked for. -/
def fieldParts (record : Value) (fields : List Field) : List (Part (Option Value)) :=
  fields.mapIdx fun i field =>
    match record.fieldContent? field.name with
    | none => ⟨none, none, none, some (.fault (.noAttribute record.classOf.fullName field.name))⟩
    | some content =>
      let own := ((alone i).validateValue ⟨config, .standard⟩ content field.rules field.declared
        context).1
      ⟨some content, some own.value, some own.value, own.stop.map (Stop.under field.name)⟩

variable {alone} {schema : Schema} {session : Session}

/-- Several values are gone through in turn, each as if it were alone. -/
theorem valueParts_failFast (hsession : Reachable schema session) (halone : ∀ i, Reachable schema (alone i))
    (values : List Value) :
    FailFast (valueParts config alone values) none
      ((validate ⟨config, .standard⟩ values session).1.1.map fun state => [state])
      (validate ⟨config, .standard⟩ values session).1.2 := by
  induction values generalizing session alone with
  | nil => exact .nil none
  | cons value values ih =>
      have hfirst := hsession.validateContext_eq ⟨config, .standard⟩ .null value
      have hrest := ih (hsession.context ⟨config, .standard⟩ .null value) fun i => halone (i + 1)
      have hown := (halone 0).validate_singleton ⟨config, .standard⟩ value
      have hparts : valueParts config alone (value :: values) =
          ⟨[value], [value.graft (schema.visit ⟨config, .standard⟩ .null false .absent value .empty).value],
            [value.graft (schema.visit ⟨config, .standard⟩ .null false .absent value .empty).value],
            (schema.visit ⟨config, .standard⟩ .null false .absent value .empty).stop⟩ ::
            valueParts config (fun i => alone (i + 1)) values := by
        simp only [valueParts, List.mapIdx_cons, hown]
      rw [hparts]
      simp only [validate, hfirst]
      generalize schema.visit ⟨config, .standard⟩ .null false .absent value .empty = visit
      cases hstop : visit.stop with
      | none => exact hrest.cons rfl
      | some stop =>
          have huntouched : values.map (fun state => [state]) =
              (valueParts config (fun i => alone (i + 1)) values).map Part.untouched := by
            apply List.ext_getElem?
            intro i
            rw [List.getElem?_map, List.getElem?_map, valueParts, List.getElem?_mapIdx, Option.map_map]
            rfl
          simp only [List.map_cons, huntouched]
          exact .stopped none rfl _

theorem parse_remaining {value : Value} {key rules : String} {remaining : RuleSet}
    (hremaining : (RuleSet.parse rules).checkLength value key = .ok remaining) :
    RuleSet.parse remaining.text = remaining :=
  RuleSet.parse_text ((RuleSet.written_parse rules).of_subset
    (RuleSet.checkLengthTokens_subset hremaining))

/--
Composite values are validated part by part, up to the first part that is refused: several values in one
call, the items of a list, the entries of a mapping, and the fields of a record that are not excluded.  No two
parts share an object.
-/
theorem composites_fail_fast (hassign : schema.AssignsNothing) (hdistinct : schema.DistinctNames)
    (hsession : Reachable schema session) (halone : ∀ i, Reachable schema (alone i)) :
    (∀ values : List Value,
      let call := (validate ⟨config, .standard⟩ values session).1
      FailFast (valueParts config alone values) none (call.1.map fun state => [state]) call.2) ∧
    (∀ kind derived items rules remaining declared context, kind.isMutable = true →
      let list := Value.sequence kind derived items
      (RuleSet.parse rules).checkLength list Visit.sequenceKey = .ok remaining →
      let whole := (session.validateValue ⟨config, .standard⟩ list rules declared context).1
      ∃ places, whole.value = .sequence kind derived places ∧ whole.state = whole.value ∧
        FailFast (itemParts config alone context (list.resolvePresent declared) remaining items) none
          places whole.stop) ∧
    (∀ kind derived entries rules remaining declared context, kind.isMutable = true →
      let mapping := Value.mapping kind derived entries
      (RuleSet.parse rules).checkLength mapping Visit.mappingKey = .ok remaining →
      let whole := (session.validateValue ⟨config, .standard⟩ mapping rules declared context).1
      ∃ places, whole.value = mapping.withEntries places ∧ whole.state = whole.value ∧
        FailFast (entryParts config alone context (mapping.resolvePresent declared) remaining entries)
          none places whole.stop) ∧
    (∀ record view rules declared context, record.isMutable = true →
      (record.resolvePresent declared).category = .record →
      schema.view? config.tagKey record.classOf = some view →
      (RuleSet.parse rules).targets = [] →
      (∀ field ∈ view.fields, (RuleSet.parse field.rules).has RuleSet.mainToken = false) →
      ((RuleSet.parse rules).required = true → record.zeroFails = false ∧ record.isZero = false) →
      let whole := (session.validateValue ⟨config, .standard⟩ record rules declared context).1
      let fields := Visit.included .parse view.fields
      whole.state = whole.value ∧
        FailFast (fieldParts config alone context record fields)
          (Visit.hooks view context whole.value).stop
          (fields.map fun field => whole.value.fieldContent? field.name) whole.stop ∧
        ∀ name, (∀ field ∈ fields, field.name ≠ name) →
          whole.value.fieldContent? name = record.fieldContent? name) ∧
    ∀ value context, value.isMutable = true →
      (session.validateContext ⟨config, .standard⟩ context value).1 =
        (session.validateValue ⟨config, .standard⟩ value "" .absent context).1 := by
  refine ⟨?_, ?_, ?_, ?_, ?_⟩
  · exact fun values => valueParts_failFast config hsession halone values
  · intro kind derived items rules remaining declared context hkind list hremaining whole
    obtain ⟨places, hvalue, hparts⟩ :=
      Schema.visit_list config context hassign hkind hremaining true declared
    have hwhole : whole = _ := hsession.validateValue_eq ⟨config, .standard⟩ list rules declared context
    have hitems : itemParts config alone context (list.resolvePresent declared) remaining items =
        items.mapIdx (Visits.itemPart fun i item => schema.visit ⟨config, .standard⟩ context true
          ((list.resolvePresent declared).item i) item remaining) := by
      simp only [itemParts, (halone _).validateValue_eq, parse_remaining hremaining]
      rfl
    have hmutable : list.isMutable = true := hkind
    rw [hwhole, hitems]
    exact ⟨places, hvalue, Value.graft_of_isMutable hmutable _, hparts⟩
  · intro kind derived entries rules remaining declared context hkind mapping hremaining whole
    obtain ⟨places, hvalue, hparts⟩ :=
      Schema.visit_mapping config context hassign hkind hremaining true declared
    have hwhole : whole = _ := hsession.validateValue_eq ⟨config, .standard⟩ mapping rules declared context
    have hentries : entryParts config alone context (mapping.resolvePresent declared) remaining entries =
        entries.map (Visits.entryPart fun item => schema.visit ⟨config, .standard⟩ context true
          (mapping.resolvePresent declared).element item remaining) := by
      simp only [entryParts, (halone _).validateValue_eq, parse_remaining hremaining]
      apply List.ext_getElem?
      intro i
      rw [List.getElem?_mapIdx, List.getElem?_map]
      rfl
    have hmutable : mapping.isMutable = true := hkind
    rw [hwhole, hentries]
    exact ⟨places, hvalue, Value.graft_of_isMutable hmutable _, hparts⟩
  · intro record view rules declared context hmutable hcategory hview htargets hmain hrequired whole fields
    obtain ⟨hparts, hothers⟩ := Schema.visit_record config context hassign hdistinct hmutable hcategory
      hview htargets hmain hrequired true
    have hwhole : whole = _ := hsession.validateValue_eq ⟨config, .standard⟩ record rules declared context
    have hfields : fieldParts config alone context record fields =
        fields.map (Visit.fieldPart (schema.visit ⟨config, .standard⟩ context) .parse true record) := by
      apply List.ext_getElem?
      intro i
      rw [fieldParts, List.getElem?_mapIdx, List.getElem?_map]
      congr
      funext field
      unfold Visit.fieldPart
      cases record.fieldContent? field.name <;> simp [(halone i).validateValue_eq]
    rw [hwhole, hfields]
    exact ⟨Value.graft_of_isMutable hmutable _, hparts, hothers⟩
  · intro value context hmutable
    have hempty : RuleSet.parse "" = .empty := by decide
    rw [hsession.validateContext_eq, hsession.validateValue_eq, hempty,
      Schema.visit_of_isMutable config context hmutable]

/-- The second of three texts is too long: the first was trimmed before, and the third is not reached. -/
theorem composites_fail_fast_texts :
    let first := ((start .empty).validateValue .standard (.ofText " a ") "len<4" .absent .null).1
    let second := ((start .empty).validateValue .standard (.ofText "a b c") "len<4" .absent .null).1
    let whole := ((start .empty).validateValue .standard
      (.sequence .list none [.ofText " a ", .ofText "a b c", .ofText " d "]) "len<4" .absent .null).1
    Schema.empty.AssignsNothing ∧ Schema.empty.DistinctNames ∧ Reachable .empty (.start .empty) ∧
      first.stop = none ∧ ∃ own, second.stop = some own ∧
        whole.stop = some (own.under (Path.index 1)) ∧
        whole.value = .sequence .list none [first.value, second.value, .ofText " d "] := by
  intro first second whole
  have hassign : Schema.empty.AssignsNothing := nofun
  have hdistinct : Schema.empty.DistinctNames := by simp [Schema.DistinctNames, Schema.empty]
  have hstart := @Reachable.start .empty
  have hfirst : first.stop = none := by decide +kernel
  obtain ⟨own, hsecond⟩ : ∃ own, second.stop = some own :=
    Option.isSome_iff_exists.1 (by decide +kernel)
  obtain ⟨places, hvalue, -, hparts⟩ :=
    (composites_fail_fast .standard hassign hdistinct hstart fun _ => hstart).2.1 .list none
      [.ofText " a ", .ofText "a b c", .ofText " d "] "len<4" ⟨["len<4"]⟩ .absent .null rfl
      (by decide +kernel)
  have hresolved : (Value.sequence .list none [.ofText " a ", .ofText "a b c", .ofText " d "]).resolvePresent
      .absent = .ofElement .list .absent := by
    rw [Value.resolvePresent]
    rfl
  rw [hresolved] at hparts
  let third := ((start .empty).validateValue .standard (.ofText " d ") "len<4" .absent .null).1
  let part (old : Value) (own : Outcome) (i : Nat) : Part Value :=
    ⟨old, own.value, own.value, own.stop.map (Stop.under (Path.index i))⟩
  have hsplit : itemParts .standard (fun _ => start .empty) .null (.ofElement .list .absent) ⟨["len<4"]⟩
      [.ofText " a ", .ofText "a b c", .ofText " d "] =
      [part (.ofText " a ") first 0] ++ part (.ofText "a b c") second 1 ::
        [part (.ofText " d ") third 2] := rfl
  have hbefore : (part (.ofText " a ") first 0).stop = none := by simp [part, hfirst]
  have hpart : (part (.ofText "a b c") second 1).stop = some (own.under (Path.index 1)) := by
    simp [part, hsecond]
  obtain ⟨hplaces, hstop⟩ := hparts.halted hsplit (by simpa using hbefore) hpart
  rw [hplaces] at hvalue
  exact ⟨hassign, hdistinct, hstart, hfirst, own, hsecond, hstop, hvalue⟩

end Session

end RuleCheck
