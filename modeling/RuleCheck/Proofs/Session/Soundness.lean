import RuleCheck.Proofs.Session.Declared
import RuleCheck.Proofs.Visit.Shifted
import RuleCheck.Proofs.Walk.Sound

/-! # Calls that pass

After a call that passes, what it leaves satisfies the rules: those of the call, and those of all fields in
the value.  The exception is a missing moment whose rules have a literal for the first date of the calendar
in another zone; it is checked as that date, but it stays missing.
-/

namespace RuleCheck

/-- Whether some field has rules with a literal for the first date of the calendar in another zone. -/
def Schema.ShiftsZero (schema : Schema) (tagKey : String) : Prop :=
  ∃ name, ∃ field ∈ schema.fields tagKey name, (RuleSet.parse field.rules).ShiftsZero

namespace Schema

variable {schema : Schema} (config : Config)

theorem not_shiftsZero_of_view (h : ¬ schema.ShiftsZero config.tagKey) {base : Class}
    {view : RecordView} (hview : schema.view? config.tagKey base = some view) {field : Field}
    (hfield : field ∈ view.fields) : ¬ (RuleSet.parse field.rules).ShiftsZero := by
  intro hshifts
  rcases fields_of_view hview with ⟨name, hfields⟩ | hfields <;> rw [hfields] at hfield
  · exact h ⟨name, field, hfield, hshifts⟩
  · rw [List.mem_singleton.1 hfield] at hshifts
    obtain ⟨literal, m, hdefault, -⟩ := hshifts
    have hnone : (RuleSet.parse boxField.rules).default? = none := by decide
    rw [hnone] at hdefault
    cases hdefault

theorem satisfies_of_visit (hassign : schema.AssignsNothing) (hdistinct : schema.DistinctNames)
    (hshift : ¬ schema.ShiftsZero config.tagKey) (context : Value) {writable : Bool}
    {declared : Annotation} {value : Value} {rules : RuleSet} (hrules : ¬ rules.ShiftsZero)
    (hpass : (schema.visit ⟨config, .standard⟩ context writable declared value rules).stop = none) :
    Satisfies (schema.view? config.tagKey) context declared
      (schema.visit ⟨config, .standard⟩ context writable declared value rules).value rules :=
  Walk.sound_visit (schema.walk ⟨config, .standard⟩ context) (schema.walk_registry config context) rfl
    (walk_distinctFields config context hdistinct) (walk_assignsNothing config context hassign)
    (fun _ _ hview _ hfield => not_shiftsZero_of_view config hshift hview hfield) _ _ _ _ _ hrules
    hpass

/-- Without leave to exchange a value, its object holds what becomes of it. -/
theorem graft_of_visit (context : Value) {declared : Annotation} {value : Value} {rules : RuleSet}
    (hpass : (schema.visit ⟨config, .standard⟩ context false declared value rules).stop = none) :
    value.graft (schema.visit ⟨config, .standard⟩ context false declared value rules).value =
      (schema.visit ⟨config, .standard⟩ context false declared value rules).value := by
  have hregistry := schema.walk_registry config context
  exact Walk.graft_of_visit hregistry hpass (Walk.replaced_of_visit hregistry hpass)

end Schema

theorem Satisfies.of_null {view? : Class → Option RecordView} {context : Value} {kind : ScalarKind}
    {rules : RuleSet} (h : Satisfies view? context kind.declared .null rules) :
    kind.Satisfies kind.zero rules := by
  have hown := Schema.category_null_declared kind
  cases h with
  | scalar hcategory hcontent h =>
      rename_i other content
      rw [hown] at hcategory
      have hkind : kind = other := by
        cases kind <;> cases other <;> first | rfl | cases hcategory
      subst hkind
      cases hcontent
      exact h
  | unsupported hcategory | missing hcategory _ _ | present hcategory _ _
  | noSequence hcategory _ _ _ | sequence hcategory _ _ _ _ | noMapping hcategory _ _ _
  | noRecord hcategory _ _ | record hcategory _ _ _ _ _ =>
      rw [hown] at hcategory
      cases kind <;> cases hcategory

namespace Session

variable {schema : Schema} {session : Session}

/--
What a call leaves of a value satisfies the rules, if no object in the value is reached in two ways and no rules
have a literal for the first date of the calendar in another zone.  For every such literal there are rules that nothing passes without satisfying them.
-/
theorem passed_satisfies (hassign : schema.AssignsNothing) (hdistinct : schema.DistinctNames)
    (config : Config) (hshift : ¬ schema.ShiftsZero config.tagKey)
    (hreach : Reachable schema session) :
    (∀ value rules declared context, ¬ (RuleSet.parse rules).ShiftsZero →
      let outcome := (session.validateValue ⟨config, .standard⟩ value rules declared context).1
      outcome.stop = none → Satisfies (schema.view? config.tagKey) context declared outcome.value
        (.parse rules)) ∧
    (∀ context value,
      let outcome := (session.validateContext ⟨config, .standard⟩ context value).1
      outcome.stop = none →
        Satisfies (schema.view? config.tagKey) context .absent outcome.state .empty) ∧
    (∀ values,
      let outcome := (validate ⟨config, .standard⟩ values session).1
      outcome.2 = none → ∀ state ∈ outcome.1,
        Satisfies (schema.view? config.tagKey) .null .absent state .empty) ∧
    ∀ literal m, Literal.readMoment literal = .ok m → m.isZero = true → m.offset.getD 0 ≠ 0 →
      ∃ earlier, ∀ rules context, RuleSet.parse rules = ScalarKind.shiftedRules literal earlier →
        let outcome := (session.validateValue ⟨config, .standard⟩ .null rules
          ScalarKind.timestamp.declared context).1
        outcome.stop = none ∧ ¬ Satisfies (schema.view? config.tagKey) context
          ScalarKind.timestamp.declared outcome.value (.parse rules) := by
  have hempty : ¬ RuleSet.empty.ShiftsZero := by
    rintro ⟨literal, m, hdefault, -⟩
    cases hdefault
  refine ⟨?_, ?_, ?_, ?_⟩
  · intro value rules declared context hrules outcome hpass
    have houtcome := hreach.validateValue_eq ⟨config, .standard⟩ value rules declared context
    simp only [outcome, houtcome] at hpass ⊢
    exact Schema.satisfies_of_visit config hassign hdistinct hshift context hrules hpass
  · intro context value outcome hpass
    have houtcome := hreach.validateContext_eq ⟨config, .standard⟩ context value
    simp only [outcome, houtcome] at hpass ⊢
    rw [Schema.graft_of_visit config context hpass]
    exact Schema.satisfies_of_visit config hassign hdistinct hshift context hempty hpass
  · intro values outcome hpass state hstate
    obtain ⟨hvisits, hstates⟩ := hreach.validate_passed ⟨config, .standard⟩ values hpass
    simp only [outcome, hstates] at hstate
    obtain ⟨value, hvalue, rfl⟩ := List.mem_map.1 hstate
    have hvisit := hvisits value hvalue
    rw [Schema.graft_of_visit config .null hvisit]
    exact Schema.satisfies_of_visit config hassign hdistinct hshift .null hempty hvisit
  · intro literal m hread hzero hoffset
    obtain ⟨earlier, hvisit⟩ := ScalarKind.visit_shiftedRules hread hzero hoffset
    refine ⟨earlier, ?_⟩
    intro rules context hrules outcome
    have houtcome := hreach.validateValue_eq ⟨config, .standard⟩ .null rules
      ScalarKind.timestamp.declared context
    obtain ⟨hstop, hvalue⟩ := hvisit true
    rw [hrules] at houtcome ⊢
    simp only [Schema.visit_null_declared, hstop, hvalue] at houtcome
    simp only [outcome, houtcome, true_and]
    intro hsatisfies
    exact ScalarKind.not_satisfies_zero literal earlier hsatisfies.of_null

/-- A record type with a field that must not be empty, and may have five characters. -/
def person : RecordHead :=
  ⟨"Person", .data, false⟩

def people : Schema :=
  ⟨[("Person", .record person)],
    [⟨person, [⟨"name", .bare (.builtIn .text), [("rules", "required,len<=5")]⟩], none, none⟩]⟩

theorem people_not_shiftsZero : ¬ people.ShiftsZero "rules" := by
  rintro ⟨name, field, hfield, literal, m, hdefault, -⟩
  have hown : ∀ field ∈ people.fields "rules" "Person", (RuleSet.parse field.rules).default? = none := by
    decide
  by_cases hname : name = "Person"
  · subst hname
    rw [hown field hfield] at hdefault
    cases hdefault
  · have hother : people.fields "rules" name = [] := by
      simp [Schema.fields, Schema.record?, people, person, Ne.symm hname]
    rw [hother] at hfield
    cases hfield

/-- A person with blanks around the name passes, and is left without them. -/
theorem passed_satisfies_person :
    people.AssignsNothing ∧ people.DistinctNames ∧ ¬ people.ShiftsZero "rules" ∧
      Reachable people (.start people) ∧
      Satisfies (people.view? "rules") .null .absent
        ((start people).validateContext .standard .null
          (.record person [("name", .ofText "  Ann  ")])).1.state .empty := by
  have hassign : people.AssignsNothing :=
    Schema.assignsNothing_of_methods (by simp [people, RecordDecl.methods])
  have hdistinct : people.DistinctNames := by simp [Schema.DistinctNames, people]
  have hstart := @Reachable.start people
  refine ⟨hassign, hdistinct, people_not_shiftsZero, hstart, ?_⟩
  refine (passed_satisfies hassign hdistinct .standard people_not_shiftsZero hstart).2.1 .null
    (.record person [("name", .ofText "  Ann  ")]) ?_
  decide +kernel

/-- Nothing passes as the first date in the east, stays nothing, and is not before the first date. -/
theorem shifted_default_unsound :
    ((start .empty).validateValue .standard .null "default=0001-01-01T00:00:00+05:00,val<0001-01-01"
        ScalarKind.timestamp.declared .null).1.stop = none ∧
      ¬ Satisfies (Schema.empty.view? "rules") .null ScalarKind.timestamp.declared
        ((start .empty).validateValue .standard .null
          "default=0001-01-01T00:00:00+05:00,val<0001-01-01" ScalarKind.timestamp.declared
          .null).1.value
        (.parse "default=0001-01-01T00:00:00+05:00,val<0001-01-01") := by
  have hrules : RuleSet.parse "default=0001-01-01T00:00:00+05:00,val<0001-01-01" =
      ScalarKind.shiftedRules "0001-01-01T00:00:00+05:00" true := by
    decide +kernel
  have hnull : ((start .empty).validateValue .standard .null
      "default=0001-01-01T00:00:00+05:00,val<0001-01-01" ScalarKind.timestamp.declared
      .null).1.value.isNull = true := by
    decide +kernel
  refine ⟨by decide +kernel, ?_⟩
  intro h
  rw [hrules] at h
  generalize ((start .empty).validateValue .standard .null
    "default=0001-01-01T00:00:00+05:00,val<0001-01-01" ScalarKind.timestamp.declared
    .null).1.value = left at h hnull
  cases left <;> first
    | exact ScalarKind.not_satisfies_zero _ true h.of_null
    | cases hnull

end Session

end RuleCheck
