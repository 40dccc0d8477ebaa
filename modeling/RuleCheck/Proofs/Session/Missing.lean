import RuleCheck.Proofs.Session.Parts
import RuleCheck.Proofs.Visit.Missing

/-! # Calls for the missing value

Under every annotation but that of a box the missing value is handled alike: it is returned as it is, or refused
if a value is required.
-/

namespace RuleCheck

namespace Value

theorem category_null_ne_unsupported (declared : Annotation) :
    (null.resolve declared).category ≠ .unsupported := by
  cases resolve_action declared with
  | optional inner _ h =>
      rw [h]
      simp [Resolved.ofElement]
  | declares resolved _ _ h =>
      rw [h]
      rcases settle_eq_or null resolved with ⟨heq, hsupported, -⟩ | ⟨heq, -⟩
      · rw [heq]
        exact hsupported
      · rw [heq]
        simp [Value.category, Resolved.ofCategory]

end Value

theorem Registry.exists_standard {category : Category} (h : category ≠ .unsupported) :
    ∃ evaluator, Registry.standard.get? category = some evaluator := by
  cases category <;> first | exact ⟨_, rfl⟩ | exact absurd rfl h

namespace Session

variable {schema : Schema} {session : Session} (config : Config)

/--
With keywords only, a call for the missing value leaves it missing, whatever is declared of it.  It passes unless
a value is required, and then it fails for that reason at the value itself; where a box is declared, it ends in a
fault instead.
-/
theorem missing_handled (hreach : Reachable schema session) {rules : String}
    (hkeywords : (RuleSet.parse rules).OnlyKeywords) (declared : Annotation) (context : Value) :
    let outcome := (session.validateValue ⟨config, .standard⟩ .null rules declared context).1
    (outcome.value = .null ∧ outcome.state = .null) ∧
      ((Value.null.resolve declared).category ≠ .reference →
        ((RuleSet.parse rules).required = false → outcome.stop = none) ∧
        ((RuleSet.parse rules).required = true →
          ∃ reason : Reason, reason.kind = .required ∧ outcome.stop = some (.failed ⟨reason, []⟩))) ∧
      ((Value.null.resolve declared).category = .reference →
        outcome.stop = some (.fault (.noAttribute "NoneType" "value"))) := by
  intro outcome
  have houtcome : outcome = _ :=
    hreach.validateValue_eq ⟨config, .standard⟩ .null rules declared context
  obtain ⟨evaluator, hevaluator⟩ :=
    Registry.exists_standard (Value.category_null_ne_unsupported declared)
  have hcategory := Registry.category_of_standard hevaluator
  obtain ⟨levels, -, hvisit⟩ := @Schema.visit_eq_evaluate schema config context .null declared evaluator
    hevaluator true (.parse rules)
  by_cases hreference : evaluator = .reference
  · subst hreference
    rw [houtcome, hvisit]
    exact ⟨⟨rfl, Value.graft_self .null⟩, fun hne => absurd hcategory.symm hne, fun _ => rfl⟩
  · rw [houtcome, hvisit, Walk.evaluate_null hkeywords _ _ hreference]
    refine ⟨⟨rfl, Value.graft_self .null⟩,
      fun _ => ⟨fun hrequired => ?_, fun hrequired => ?_⟩, fun hbox => ?_⟩
    · simp [hrequired]
    · exact ⟨evaluator.missingReason, evaluator.kind_missingReason, by simp [hrequired, Stop.refuse]⟩
    · rw [hbox] at hevaluator
      cases hevaluator
      exact absurd rfl hreference

/-- A missing list is refused where one is required, and returned as it is where not. -/
theorem missing_handled_list :
    Reachable .empty (.start .empty) ∧
      (∃ reason : Reason, reason.kind = .required ∧
        ((start .empty).validateValue .standard .null "notrim, required,nonsense"
          (.applied (.builtIn .list) [.bare (.builtIn .int)]) .null).1.stop =
            some (.failed ⟨reason, []⟩)) ∧
      ((start .empty).validateValue .standard .null "toupper,tolower"
        (.applied (.builtIn .list) [.bare (.builtIn .int)]) .null).1.stop = none := by
  have hrequired : (RuleSet.parse "notrim, required,nonsense").OnlyKeywords := by
    unfold RuleSet.OnlyKeywords
    decide +kernel
  have hfolding : (RuleSet.parse "toupper,tolower").OnlyKeywords := by
    unfold RuleSet.OnlyKeywords
    decide +kernel
  refine ⟨.start, ?_, ?_⟩
  · exact ((missing_handled .standard .start hrequired _ .null).2.1 (by decide)).2 (by decide +kernel)
  · exact ((missing_handled .standard .start hfolding _ .null).2.1 (by decide)).1 (by decide +kernel)

/-- Without any rules, a call for the missing value in place of a box ends in a fault. -/
theorem missing_box_faults :
    ((start .empty).validateValue .standard .null "" (.applied (.builtIn .box) [.bare (.builtIn .int)])
        .null).1.stop = some (.fault (.noAttribute "NoneType" "value")) ∧
      (RuleSet.parse "").required = false := by
  decide +kernel

end Session

end RuleCheck
