import RuleCheck.Proofs.Session.Parts
import RuleCheck.Proofs.Session.Tokens
import RuleCheck.Proofs.Walk.Required

/-! # Calls that ask for a value

What a call returns if its rules ask for a value other than zero.  Scalars and boxes are held to that; a list
or a mapping passes though it is empty, and so does a record of which only blanks are left to be trimmed.
-/

namespace RuleCheck

namespace Schema

variable {schema : Schema} (config : Config) (context : Value)

theorem visit_empty_list (hassign : schema.AssignsNothing) (kind : SequenceKind)
    (derived : Option String) (writable : Bool) (declared : Annotation) {rules : RuleSet}
    (hlengths : rules.LengthsHold Visit.sequenceKey (.sequence kind derived [])) :
    (schema.visit ⟨config, .standard⟩ context writable declared (.sequence kind derived [])
        rules).stop = none ∧
      (schema.visit ⟨config, .standard⟩ context writable declared (.sequence kind derived [])
        rules).value = .sequence kind derived [] := by
  have hevaluator : Registry.standard.get?
      ((Value.sequence kind derived []).resolvePresent declared).category = some .sequence := by
    rw [Value.category_sequence]
    rfl
  obtain ⟨-, descend, -, hvisit, -⟩ :=
    visit_inside config context hassign rfl hevaluator writable rules
  have hremaining := RuleSet.checkLength_of_lengthsHold rfl rfl hlengths
  rw [hvisit]
  simp only [Walk.evaluate, Visit.sequence, hremaining]
  exact ⟨rfl, rfl⟩

theorem visit_empty_mapping (hassign : schema.AssignsNothing) (kind : MappingKind)
    (derived : Option String) (writable : Bool) (declared : Annotation) {rules : RuleSet}
    (hlengths : rules.LengthsHold Visit.mappingKey (.mapping kind derived [])) :
    (schema.visit ⟨config, .standard⟩ context writable declared (.mapping kind derived [])
        rules).stop = none ∧
      (schema.visit ⟨config, .standard⟩ context writable declared (.mapping kind derived [])
        rules).value = .mapping kind derived [] := by
  have hevaluator : Registry.standard.get?
      ((Value.mapping kind derived []).resolvePresent declared).category = some .mapping := by
    rw [Value.category_mapping]
    rfl
  obtain ⟨-, descend, -, hvisit, -⟩ :=
    visit_inside config context hassign rfl hevaluator writable rules
  have hremaining := RuleSet.checkLength_of_lengthsHold rfl rfl hlengths
  rw [hvisit]
  simp only [Walk.evaluate, Visit.mapping, hremaining]
  exact ⟨rfl, rfl⟩

end Schema

namespace Session

variable {schema : Schema} {session : Session}

/--
A value that is asked for and passes is returned as one that is there, and not as a zero unless it is a list,
a mapping or a record in which there were but blanks.  A list and a mapping pass though they are empty.
-/
theorem required_provides (hassign : schema.AssignsNothing) (config : Config)
    (hreach : Reachable schema session) (declared : Annotation) (context : Value) {rules : String}
    (hrequired : (RuleSet.parse rules).required = true) :
    (∀ value : Value, (value.resolvePresent declared).category ≠ .unsupported →
        (session.validateValue ⟨config, .standard⟩ value rules declared context).1.stop = none →
        Walk.Provides (value.resolvePresent declared) value
          (session.validateValue ⟨config, .standard⟩ value rules declared context).1.value) ∧
      (∀ kind derived,
        (RuleSet.parse rules).LengthsHold Visit.sequenceKey (.sequence kind derived []) →
        let outcome := (session.validateValue ⟨config, .standard⟩ (.sequence kind derived []) rules
          declared context).1
        outcome.stop = none ∧ outcome.value = .sequence kind derived [] ∧
          outcome.value.isZero = true) ∧
      ∀ kind derived,
        (RuleSet.parse rules).LengthsHold Visit.mappingKey (.mapping kind derived []) →
        let outcome := (session.validateValue ⟨config, .standard⟩ (.mapping kind derived []) rules
          declared context).1
        outcome.stop = none ∧ outcome.value = .mapping kind derived [] ∧
          outcome.value.isZero = true := by
  refine ⟨fun value hsupported hpass => ?_, fun kind derived hlengths => ?_,
    fun kind derived hlengths => ?_⟩
  · rw [hreach.validateValue_eq] at hpass ⊢
    exact Walk.provides_of_visit (schema.walk_registry config context)
      (Schema.walk_assignsNothing config context hassign) hrequired hsupported hpass
  · rw [hreach.validateValue_eq]
    obtain ⟨hstop, hvalue⟩ :=
      Schema.visit_empty_list config context hassign kind derived true declared hlengths
    simp only [hstop, hvalue]
    exact ⟨trivial, trivial, rfl⟩
  · rw [hreach.validateValue_eq]
    obtain ⟨hstop, hvalue⟩ :=
      Schema.visit_empty_mapping config context hassign kind derived true declared hlengths
    simp only [hstop, hvalue]
    exact ⟨trivial, trivial, rfl⟩

/-- A text that is asked for is not returned empty; a list is. -/
theorem required_provides_text :
    Schema.empty.AssignsNothing ∧ Reachable Schema.empty (start .empty) ∧
      (RuleSet.parse "required").required = true ∧
      ((start .empty).validateValue .standard (.ofText " a ") "required" .absent .null).1.value.isZero =
        false ∧
      ((start .empty).validateValue .standard (.sequence .list none []) "required" .absent
        .null).1.stop = none := by
  have hassign : Schema.empty.AssignsNothing := nofun
  have hstart := @Reachable.start Schema.empty
  have hrequired : (RuleSet.parse "required").required = true := by decide +kernel
  obtain ⟨hvalue, hlist, -⟩ := required_provides hassign .standard hstart .absent .null hrequired
  have htext : ((Value.ofText " a ").resolvePresent .absent).category = .text := by
    rw [Value.resolvePresent_of_ne] <;> decide
  refine ⟨hassign, hstart, hrequired, ?_, (hlist .list none ?_).1⟩
  · have hprovides := hvalue (.ofText " a ") (by rw [htext]; decide) (by decide +kernel)
    refine Bool.eq_false_iff.2 fun hzero => ?_
    have hcategory := (hprovides.nonzero hzero).1
    rw [htext] at hcategory
    revert hcategory
    decide
  · have htokens : (RuleSet.parse "required").tokens = ["required"] := by decide +kernel
    intro token htoken
    rw [htokens, List.mem_singleton] at htoken
    subst htoken
    exact ⟨none, by decide +kernel, by simp⟩

/-- An empty list that is asked for passes, and a label of blanks passes and is empty afterwards. -/
theorem required_passes_zero :
    (((start .empty).validateValue .standard (.sequence .list none []) "required" .absent
          .null).1.stop = none ∧
        ((Value.sequence .list none []).resolvePresent .absent).category ≠ .unsupported ∧
        ((start .empty).validateValue .standard (.sequence .list none []) "required" .absent
          .null).1.value.isZero = true) ∧
      ((start labels).validateValue .standard
          (.record label [("front", .ofText " "), ("back", .null)]) "required" .absent
          .null).1.stop = none ∧
        ((Value.record label [("front", .ofText " "), ("back", .null)]).resolvePresent
          .absent).category ≠ .unsupported ∧
        ((start labels).validateValue .standard
          (.record label [("front", .ofText " "), ("back", .null)]) "required" .absent
          .null).1.value.isZero = true := by
  have hcategory (value : Value) (h : (value.resolve .absent).category ∈ [.list, .record]) :
      (value.resolvePresent .absent).category ≠ .unsupported := by
    rw [Value.resolvePresent_of_ne] <;> intro hnot <;> rw [hnot] at h <;> revert h <;> decide
  refine ⟨⟨by decide +kernel, hcategory _ (by decide), by decide +kernel⟩, by decide +kernel,
    hcategory _ (by decide), by decide +kernel⟩

end Session

end RuleCheck
