import RuleCheck.Proofs.Session.EntryPoints
import RuleCheck.Proofs.Walk.Failures

/-! # Where the failure of a call is located

The path of a failure leads from the value of the call to something inside it.  If all fields are visited with
their own rules only, a call for what is there alone fails for the same reason, and has no path to tell.
-/

namespace RuleCheck

namespace Schema

/--
What the path of a failure tells of the place that a call was for: it is a path of the value there, and without
redirected rules and fields marked `main` it is the path of a position whose own visit fails for the same reason,
without a path.
-/
structure Locates (schema : Schema) (config : Config) (context : Value) (place : Place)
    (failure : Failure) : Prop where
  isPath : place.value.IsPath (schema.view? config.tagKey) failure.path
  alone (htargets : place.rules.targets = []) (hown : schema.OwnRulesOnly config.tagKey place.value) :
    ∃ last, (schema.walk ⟨config, .standard⟩ context).Position place failure.path last ∧
      place.value.Leads (schema.view? config.tagKey) failure.path last.value ∧
      ∀ session, Session.Reachable schema session →
        (session.run ⟨config, .standard⟩ last.writable last.declared last.value last.rules
          context).1.stop = some (.failed ⟨failure.reason, []⟩)

variable {schema : Schema} (config : Config) (context : Value)

theorem walk_raisesNoPaths (h : schema.RaisesNoPaths) :
    (schema.walk ⟨config, .standard⟩ context).RaisesNoPaths := by
  intro base view hview hook hhook
  obtain ⟨decl, hdecl, hdeclared⟩ := mem_hooks_of_view hview hhook
  exact h decl hdecl hook hdeclared

variable (schema) in
theorem walk_records (base : Class) (view : RecordView)
    (h : (schema.walk ⟨config, .standard⟩ context).view? base = some view) : base.isRecord = true := by
  cases base with
  | record head => rfl
  | builtIn base => cases base <;> first | rfl | cases h
  | derived name base => cases h
  | enumeration name mixin => cases h

theorem visit_of_failed (hassign : schema.AssignsNothing) (place : Place) {levels : Nat}
    {failure : Failure}
    (h : ((schema.walk ⟨config, .standard⟩ context).visitAt levels place).stop =
      some (.failed failure)) :
    (schema.visit ⟨config, .standard⟩ context place.writable place.declared place.value
      place.rules).stop = some (.failed failure) := by
  have henough : ((schema.walk ⟨config, .standard⟩ context).visitAt levels place).stop ≠
      some (.fault .tooDeep) := by
    rw [h]
    simp
  rw [← visit_eq_of_enough config context hassign place henough, h]

theorem locates_of_visit (hassign : schema.AssignsNothing) (hdistinct : schema.DistinctNames)
    (hraises : schema.RaisesNoPaths) (place : Place) {failure : Failure}
    (h : (schema.visit ⟨config, .standard⟩ context place.writable place.declared place.value
      place.rules).stop = some (.failed failure)) : schema.Locates config context place failure where
  isPath :=
    Walk.isPath_of_failed (schema.walk_registry config context)
      (walk_assignsNothing config context hassign) (walk_raisesNoPaths config context hraises) h
  alone htargets hown := by
    obtain ⟨last, levels, hposition, hlast⟩ := Walk.position_of_failed
      (schema.walk_registry config context) (schema.walk_records config context)
      (walk_distinctFields config context hdistinct) (walk_raisesNoPaths config context hraises)
      htargets (walk_ownRulesOnly config context hown) h
    refine ⟨last, hposition, hposition.leads, fun session hsession => ?_⟩
    rw [hsession.faithful.run_eq]
    exact visit_of_failed config context hassign last hlast

end Schema

namespace Session

variable {schema : Schema} {session : Session}

/--
The path of a failure leads from the value of the call to what was refused: from the value validated against
rules, from the one validated with a context, or from one of several values.
-/
theorem failures_located (hassign : schema.AssignsNothing) (hdistinct : schema.DistinctNames)
    (hraises : schema.RaisesNoPaths) (config : Config) (hreach : Reachable schema session)
    (failure : Failure) :
    (∀ value rules declared context,
        (session.validateValue ⟨config, .standard⟩ value rules declared context).1.stop =
          some (.failed failure) →
        schema.Locates config context ⟨true, declared, value, .parse rules⟩ failure) ∧
      (∀ context value,
        (session.validateContext ⟨config, .standard⟩ context value).1.stop = some (.failed failure) →
        schema.Locates config context ⟨false, .absent, value, .empty⟩ failure) ∧
      ∀ values, (validate ⟨config, .standard⟩ values session).1.2 = some (.failed failure) →
        ∃ value ∈ values, schema.Locates config .null ⟨false, .absent, value, .empty⟩ failure := by
  refine ⟨fun value rules declared context hstop => ?_, fun context value hstop => ?_,
    fun values hstop => ?_⟩
  · rw [hreach.validateValue_eq] at hstop
    exact Schema.locates_of_visit config context hassign hdistinct hraises
      ⟨true, declared, value, .parse rules⟩ hstop
  · rw [hreach.validateContext_eq] at hstop
    exact Schema.locates_of_visit config context hassign hdistinct hraises
      ⟨false, .absent, value, .empty⟩ hstop
  · obtain ⟨value, hvalue, hvisit⟩ := hreach.validate_stopped ⟨config, .standard⟩ values hstop
    exact ⟨value, hvalue, Schema.locates_of_visit config .null hassign hdistinct hraises
      ⟨false, .absent, value, .empty⟩ hvisit⟩

/-- A frozen setting in a tuple cannot get its default, and neither can its size alone. -/
theorem failures_located_setting :
    let value := Value.sequence .tuple none [.record frozenSetting [("size", .ofInt 0)]]
    settings.AssignsNothing ∧ settings.DistinctNames ∧ settings.RaisesNoPaths ∧
      Reachable settings (start settings) ∧
      (validate .standard [value] (start settings)).1.2 =
        some (.failed ⟨.notWritable, ["[0]", "size"]⟩) ∧
      ∃ last : Place, value.Leads (settings.view? "rules") ["[0]", "size"] last.value ∧
        ((start settings).run .standard last.writable last.declared last.value last.rules
          .null).1.stop = some (.failed ⟨.notWritable, []⟩) := by
  intro value
  have hassign : settings.AssignsNothing :=
    Schema.assignsNothing_of_methods (by simp [settings, RecordDecl.methods])
  have hdistinct : settings.DistinctNames := by simp [Schema.DistinctNames, settings]
  have hraises : settings.RaisesNoPaths := Schema.raisesNoPaths_of_methods (by simp [settings, RecordDecl.methods])
  have hstart := @Reachable.start settings
  have hstop : (validate .standard [value] (start settings)).1.2 =
      some (.failed ⟨.notWritable, ["[0]", "size"]⟩) := by decide +kernel
  refine ⟨hassign, hdistinct, hraises, hstart, hstop, ?_⟩
  obtain ⟨own, hown, hlocates⟩ := (failures_located hassign hdistinct hraises .standard hstart
    ⟨.notWritable, ["[0]", "size"]⟩).2.2 [value] hstop
  rw [List.mem_singleton.1 hown] at hlocates
  obtain ⟨last, -, hleads, halone⟩ := hlocates.alone rfl (settings_ownRulesOnly value)
  exact ⟨last, hleads, halone _ hstart⟩

end Session

end RuleCheck
