import RuleCheck.Proofs.Session.EntryPoints
import RuleCheck.Proofs.Walk.Repeated

/-! # Calls that are repeated

What a call returned is returned again by the same call, which writes nothing, and passes without leave to
exchange it.
-/

namespace RuleCheck

namespace Schema

variable {schema : Schema} (config : Config) (context : Value)

theorem visit_keeps (hassign : schema.AssignsNothing) (hdistinct : schema.DistinctNames) (place : Place)
    (hrepeatable : (schema.walk ⟨config, .standard⟩ context).Repeatable
      (Walk.budget schema config.tagKey place.declared place.value) place)
    {left : Value}
    (hpass : (schema.visit ⟨config, .standard⟩ context place.writable place.declared place.value
      place.rules).stop = none)
    (hleft : (schema.visit ⟨config, .standard⟩ context place.writable place.declared place.value
      place.rules).value = left) :
    (schema.visit ⟨config, .standard⟩ context place.writable place.declared left place.rules).Keeps
      left := by
  have hregistry := schema.walk_registry config context
  have hnothing := walk_assignsNothing config context hassign
  have hdepth : left.depth ≤ place.value.depth := by
    have hkept := (Walk.kept_depth hnothing).visit_keeps hregistry _ place.writable place.declared
      place.value place.rules hpass
    rw [← hleft]
    exact hkept.2
  have hbudget : Walk.budget schema config.tagKey place.declared left ≤
      Walk.budget schema config.tagKey place.declared place.value := by
    unfold Walk.budget
    have := Nat.mul_le_mul_right (max place.declared.size (schema.annotationSize config.tagKey) + 1)
      (Nat.add_le_add_right hdepth (Walk.assignRounds * schema.assignedDepth))
    omega
  have hagain := Walk.repeats_visit hregistry (walk_distinctFields config context hdistinct) hnothing
    _ place hrepeatable hpass
  have hsame := visit_eq_of_need config context hassign { place with value := left }
    (Nat.le_max_left _ _) (Nat.le_max_right _ _)
    (Nat.le_trans (need_le_budget config.tagKey { place with value := left }) hbudget)
  unfold Walk.visitAt at hagain hsame
  unfold visit at hleft
  rw [hleft, hsame] at hagain
  exact hagain

end Schema

namespace Session

variable {schema : Schema} (config : Config)

/--
A call that returned a value, which is a tree, returns it again when it is repeated with that value, and no place is written on
the way.  Without rules and annotation, the value also passes as it is, without leave to exchange it.
-/
theorem validateValue_again (hassign : schema.AssignsNothing) (hdistinct : schema.DistinctNames)
    {first second third : Session} (hfirst : Reachable schema first)
    (hsecond : Reachable schema second) (hthird : Reachable schema third) (value : Value)
    (rules : String) (declared : Annotation) (context : Value)
    (hrepeatable : (schema.walk ⟨config, .standard⟩ context).Repeatable
      (Walk.budget schema config.tagKey declared value) ⟨true, declared, value, .parse rules⟩)
    (hpass : (first.validateValue ⟨config, .standard⟩ value rules declared context).1.stop = none) :
    let returned := (first.validateValue ⟨config, .standard⟩ value rules declared context).1.value
    (second.validateValue ⟨config, .standard⟩ returned rules declared context).1 =
        ⟨returned, returned, none⟩ ∧
      .wrote ∉ (schema.visit ⟨config, .standard⟩ context true declared returned (.parse rules)).events ∧
      (RuleSet.parse rules = .empty → declared = .absent →
        (third.validateContext ⟨config, .standard⟩ context returned).1 =
          ⟨returned, returned, none⟩) := by
  intro returned
  have hcall := hfirst.validateValue_eq ⟨config, .standard⟩ value rules declared context
  have hreturned : (schema.visit ⟨config, .standard⟩ context true declared value
      (.parse rules)).value = returned := (congrArg Outcome.value hcall).symm
  rw [hcall] at hpass
  have hkeeps : (schema.visit ⟨config, .standard⟩ context true declared returned
      (.parse rules)).Keeps returned :=
    Schema.visit_keeps config context hassign hdistinct ⟨true, declared, value, .parse rules⟩
      hrepeatable hpass hreturned
  refine ⟨?_, hkeeps.wrote, fun hempty habsent => ?_⟩
  · rw [hsecond.validateValue_eq]
    simp only [hkeeps.stop, hkeeps.value_eq, Value.graft_self]
  · subst habsent
    rw [hempty] at hkeeps
    have hquiet : schema.visit ⟨config, .standard⟩ context false .absent returned .empty =
        schema.visit ⟨config, .standard⟩ context true .absent returned .empty :=
      Walk.quiet_visit _ _ .absent returned .empty hkeeps.stop hkeeps.replaced
    rw [hthird.validateContext_eq, hquiet]
    simp only [hkeeps.stop, hkeeps.value_eq, Value.graft_self]

/-- A tuple of a text with blanks around it and a frozen record that lacks its size. -/
def pairing : Value :=
  .sequence .tuple none [.ofText " a ", .record frozenSetting [("size", .ofInt 0)]]

/-- The only token of a setting redirects nothing, asks for nothing, and gives a literal without blanks. -/
theorem settings_repeatable (context : Value) (levels : Nat) :
    (settings.walk .standard context).Repeatable levels ⟨true, .absent, pairing, .parse ""⟩ := by
  apply Walk.repeatable_of_rules (P := fun rules => ∀ token ∈ rules.tokens, token = "default=5")
  · exact fun _ _ h hfewer token htoken => h token (hfewer token htoken)
  · intro base view hview field hfield
    have hsetting : ∀ field ∈ settings.fields "rules" "Setting",
        ∀ token ∈ (RuleSet.parse field.rules).tokens, token = "default=5" := by decide
    rcases Schema.fields_of_view hview with ⟨name, hown⟩ | hown <;> rw [hown] at hfield
    · by_cases hname : name = "Setting"
      · subst hname
        exact hsetting field hfield
      · have hother : settings.fields "rules" name = [] := by
          simp [Schema.fields, Schema.record?, settings, frozenSetting, Ne.symm hname]
        have hnone : field ∈ settings.fields "rules" name := hfield
        rw [hother] at hnone
        cases hnone
    · rw [List.mem_singleton.1 hfield]
      show ∀ token ∈ (RuleSet.parse Schema.boxField.rules).tokens, token = "default=5"
      decide
  · intro rules h
    have hhas (token : String) (hne : token ≠ "default=5") : rules.has token = false := by
      unfold RuleSet.has
      rw [List.contains_eq_any_beq, List.any_eq_false]
      intro other hother heq
      exact hne (by rw [← h other hother]; exact (beq_iff_eq.1 heq))
    refine ⟨?_, hhas _ (by decide), hhas _ (by decide), fun _ literal hliteral => ?_⟩
    · rw [RuleSet.targets_eq_nil_iff]
      intro token htoken
      rw [h token htoken]
      decide
    · obtain ⟨token, htoken, hafter⟩ := List.exists_of_findSome?_eq_some hliteral
      rw [h token htoken] at hafter
      have hfive : Text.after? RuleSet.defaultFront "default=5" = some "5" := by decide
      rw [hfive] at hafter
      cases hafter
      have hblanks := hhas RuleSet.keepBlanksToken (by decide)
      have hcapitals := hhas RuleSet.capitalsToken (by decide)
      have hsmalls := hhas RuleSet.smallsToken (by decide)
      simp only [RuleSet.foldText, hblanks, hcapitals, hsmalls, Bool.false_eq_true, if_false]
      decide
  · decide

/-- A second call finds the text trimmed and the size given, and so does one without leave to write. -/
theorem validateValue_again_pairing :
    let returned := ((start settings).validateValue .standard pairing "" .absent .null).1.value
    settings.AssignsNothing ∧ settings.DistinctNames ∧ Reachable settings (.start settings) ∧
      (settings.walk .standard .null).Repeatable (Walk.budget settings "rules" .absent pairing)
        ⟨true, .absent, pairing, .parse ""⟩ ∧
      ((start settings).validateValue .standard pairing "" .absent .null).1.stop = none ∧
      returned.items?.map (List.map Value.scalar?) = some [some (.text "a"), none] ∧
      ((start settings).validateValue .standard returned "" .absent .null).1 =
        ⟨returned, returned, none⟩ ∧
      ((start settings).validateContext .standard .null returned).1 = ⟨returned, returned, none⟩ := by
  have hassign : settings.AssignsNothing :=
    Schema.assignsNothing_of_methods (by simp [settings, RecordDecl.methods])
  have hdistinct : settings.DistinctNames := by simp [Schema.DistinctNames, settings]
  have hstart := @Reachable.start settings
  have hpass : ((start settings).validateValue .standard pairing "" .absent .null).1.stop = none := by
    decide +kernel
  obtain ⟨hagain, -, hplain⟩ := validateValue_again .standard hassign hdistinct hstart hstart hstart
    pairing "" .absent .null (settings_repeatable .null _) hpass
  refine ⟨hassign, hdistinct, hstart, settings_repeatable .null _, hpass, ?_, hagain,
    hplain (by decide +kernel) rfl⟩
  decide +kernel

end Session

end RuleCheck
