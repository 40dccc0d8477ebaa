import RuleCheck.Proofs.Session.Parts
import RuleCheck.Proofs.Walk.Frame

/-! # The three ways into a walk

A value can be validated as it is, as the content of a box, or without leave to exchange it.  The walks
are the same, except that the last one is refused where it would have to exchange the value itself.
-/

namespace RuleCheck

namespace Schema

/-- Whether the records in a value have neither redirected rules nor fields marked `main`. -/
def OwnRulesOnly (schema : Schema) (tagKey : String) (value : Value) : Prop :=
  ∀ inner : Value, inner.Within value → ∀ fields, schema.fieldsOf? tagKey inner.classOf = some fields →
    ∀ field ∈ fields, (RuleSet.parse field.rules).has RuleSet.mainToken = false ∧
      (RuleSet.parse field.rules).targets = []

variable {schema : Schema} (config : Config)

theorem walk_ownRulesOnly (context : Value) {value : Value}
    (h : schema.OwnRulesOnly config.tagKey value) :
    (schema.walk ⟨config, .standard⟩ context).OwnRulesOnly value := by
  intro inner hinner view hview field hfield
  have hfields : schema.fieldsOf? config.tagKey inner.classOf =
      (schema.view? config.tagKey inner.classOf).map RecordView.fields := fieldsOf?_eq _ _
  have hclass : schema.view? config.tagKey inner.classOf = some view := hview
  rw [hclass] at hfields
  exact h inner hinner view.fields hfields field hfield

/-- Where no declared field is marked `main` or redirects rules, no value holds one that is or does. -/
theorem ownRulesOnly_of_declared {tagKey : String}
    (h : ∀ decl ∈ schema.records, ∀ field ∈ decl.resolved schema.class? tagKey,
      (RuleSet.parse field.rules).has RuleSet.mainToken = false ∧ (RuleSet.parse field.rules).targets = [])
    (value : Value) : schema.OwnRulesOnly tagKey value := by
  intro inner _ fields hfields field hfield
  rw [fieldsOf?_eq] at hfields
  obtain ⟨view, hview, rfl⟩ := Option.map_eq_some_iff.1 hfields
  rcases fields_of_view hview with ⟨name, hown⟩ | hown <;> rw [hown] at hfield
  · obtain ⟨decl, hdecl, -, hdeclared⟩ := mem_fields hfield
    exact h decl hdecl field hdeclared
  · rw [List.mem_singleton.1 hfield]
    decide

variable (schema) in
theorem visit_null (context : Value) (writable : Bool) :
    (schema.visit ⟨config, .standard⟩ context writable .absent .null .empty).stop = none ∧
      (schema.visit ⟨config, .standard⟩ context writable .absent .null .empty).value = .null := by
  unfold visit Walk.budget
  exact ⟨rfl, rfl⟩

theorem visit_box (hassign : schema.AssignsNothing) (context : Value) (writable : Bool)
    (value : Value) :
    (schema.visit ⟨config, .standard⟩ context writable .absent (.box value) .empty).stop =
        (schema.visit ⟨config, .standard⟩ context true .absent value .empty).stop ∧
      (schema.visit ⟨config, .standard⟩ context writable .absent (.box value) .empty).value =
        .box (schema.visit ⟨config, .standard⟩ context true .absent value .empty).value := by
  cases hnull : value.isNull with
  | true =>
      obtain rfl := Value.eq_null_of_isNull hnull
      have hcontent := schema.visit_null config context true
      rw [hcontent.1, hcontent.2]
      unfold visit Walk.budget
      exact ⟨rfl, rfl⟩
  | false =>
      rw [visit_content config context hassign hnull rfl]
      exact ⟨rfl, rfl⟩

variable (schema) in
/-- Without leave to exchange it, a value passes only if its object then holds what becomes of it. -/
theorem visit_readOnly (context value : Value) :
    (schema.visit ⟨config, .standard⟩ context false .absent value .empty =
        schema.visit ⟨config, .standard⟩ context true .absent value .empty ∧
      ((schema.visit ⟨config, .standard⟩ context true .absent value .empty).stop = none →
        value.graft (schema.visit ⟨config, .standard⟩ context true .absent value .empty).value =
          (schema.visit ⟨config, .standard⟩ context true .absent value .empty).value)) ∨
    ∃ path, (schema.visit ⟨config, .standard⟩ context false .absent value .empty).stop =
      some (.failed ⟨.notWritable, path⟩) := by
  have hregistry := schema.walk_registry config context
  have hagrees := (schema.walk ⟨config, .standard⟩ context).visit_agrees_of_readOnly
    (Walk.budget schema config.tagKey .absent value) .absent value .empty
  rcases hagrees with ⟨stop, hstop, path, rfl⟩ | hsame
  · exact .inr ⟨path, hstop⟩
  · refine .inl ⟨hsame, fun hpass => ?_⟩
    have hreadOnly := hpass
    unfold visit at hpass hreadOnly ⊢
    rw [← hsame] at hreadOnly
    have hreplaced := Walk.replaced_of_visit hregistry hreadOnly
    rw [hsame] at hreplaced
    exact Walk.graft_of_visit hregistry hpass hreplaced

/-- A value that becomes what its object then holds passes without leave to exchange it. -/
theorem visit_readOnly_of_graft (hassign : schema.AssignsNothing) (hdistinct : schema.DistinctNames)
    (context : Value) {value : Value} (hown : schema.OwnRulesOnly config.tagKey value)
    (hpass : (schema.visit ⟨config, .standard⟩ context true .absent value .empty).stop = none)
    (hleft : value.graft (schema.visit ⟨config, .standard⟩ context true .absent value .empty).value =
      (schema.visit ⟨config, .standard⟩ context true .absent value .empty).value) :
    schema.visit ⟨config, .standard⟩ context false .absent value .empty =
      schema.visit ⟨config, .standard⟩ context true .absent value .empty := by
  have hshows := Walk.shows_visit (schema.walk_registry config context)
    (walk_distinctFields config context hdistinct) (walk_assignsNothing config context hassign)
    (Walk.budget schema config.tagKey .absent value)
  have htargets : RuleSet.empty.targets = [] := rfl
  have hreplaced := hshows true .absent value .empty (walk_ownRulesOnly config context hown)
    htargets hpass hleft
  exact Walk.quiet_visit _ _ .absent value .empty hpass hreplaced

end Schema

namespace Session

variable {schema : Schema} (config : Config)

/--
A value as it is, the same value without leave to exchange it, and a box with it: the box gets what becomes
of the value, or the walk has the same stop; without leave, the outcome is the same or the refusal to
exchange the value, and the latter if the object of the value does not hold what becomes of it.
-/
theorem entry_points_agree (hassign : schema.AssignsNothing) (hdistinct : schema.DistinctNames)
    {first second third : Session} (hfirst : Reachable schema first)
    (hsecond : Reachable schema second) (hthird : Reachable schema third) (value : Value) :
    let direct := (first.validateValue ⟨config, .standard⟩ value "" .absent .null).1
    let plain := (validate ⟨config, .standard⟩ [value] second).1
    let boxed := (validate ⟨config, .standard⟩ [.box value] third).1
    boxed.2 = direct.stop ∧
      (direct.stop = none → boxed.1 = [.box direct.value]) ∧
      (plain.2 = direct.stop ∨ ∃ path, plain.2 = some (.failed ⟨.notWritable, path⟩)) ∧
      (direct.stop = none → direct.value ≠ direct.state →
        ∃ path, plain.2 = some (.failed ⟨.notWritable, path⟩)) ∧
      (direct.stop = none → direct.value = direct.state →
        schema.OwnRulesOnly config.tagKey value → plain = ([direct.state], none)) := by
  have hempty : RuleSet.parse "" = .empty := by decide
  have hdirect := hfirst.validateValue_eq ⟨config, .standard⟩ value "" .absent .null
  have hplain := hsecond.validate_singleton ⟨config, .standard⟩ value
  have hboxed := hthird.validate_singleton ⟨config, .standard⟩ (.box value)
  obtain ⟨hstop, hvalue⟩ := Schema.visit_box config hassign .null false value
  rw [hempty] at hdirect
  simp only [hstop, hvalue] at hboxed
  rw [hdirect, hplain, hboxed]
  have hreadOnly := schema.visit_readOnly config .null value
  refine ⟨rfl, ?_, ?_, ?_, ?_⟩
  · intro _
    simp [Value.graft]
  · rcases hreadOnly with ⟨hsame, -⟩ | hrefused
    · exact .inl (congrArg Visit.stop hsame)
    · exact .inr hrefused
  · intro hpass hdiffers
    rcases hreadOnly with ⟨-, hleft⟩ | hrefused
    · exact absurd (hleft hpass).symm hdiffers
    · exact hrefused
  · intro hpass hsame hown
    have hquiet := Schema.visit_readOnly_of_graft config hassign hdistinct .null hown hpass hsame.symm
    simp only [hquiet] at hpass ⊢
    rw [hpass]

/-- A frozen record type of one field, with a literal for a zero value. -/
def frozenSetting : RecordHead :=
  ⟨"Setting", .data, true⟩

def settings : Schema :=
  ⟨[("Setting", .record frozenSetting)],
    [⟨frozenSetting, [⟨"size", .bare (.builtIn .int), [("rules", "default=5")]⟩], none, none⟩]⟩

theorem settings_ownRulesOnly (value : Value) : settings.OwnRulesOnly "rules" value :=
  Schema.ownRulesOnly_of_declared (by decide) value

/-- A frozen record that would get a default is refused as it is, and not in a list. -/
theorem entry_points_agree_setting :
    settings.AssignsNothing ∧ settings.DistinctNames ∧ Reachable settings (.start settings) ∧
      (∃ path, (validate .standard [.record frozenSetting [("size", .ofInt 0)]]
        (.start settings)).1.2 = some (.failed ⟨.notWritable, path⟩)) ∧
      (validate .standard [.sequence .list none [.record frozenSetting [("size", .ofInt 0)]]]
        (.start settings)).1.2 = none := by
  have hassign : settings.AssignsNothing :=
    Schema.assignsNothing_of_methods (by simp [settings, RecordDecl.methods])
  have hdistinct : settings.DistinctNames := by simp [Schema.DistinctNames, settings]
  have hstart := @Reachable.start settings
  have hagree := entry_points_agree .standard hassign hdistinct hstart hstart hstart
  refine ⟨hassign, hdistinct, hstart, ?_, ?_⟩
  · refine (hagree (.record frozenSetting [("size", .ofInt 0)])).2.2.2.1 ?_ ?_
    · decide +kernel
    · intro h
      have hsize := congrArg (fun value => (value.fieldContent? "size").bind Value.scalar?) h
      revert hsize
      decide +kernel
  · refine congrArg Prod.snd
      ((hagree (.sequence .list none [.record frozenSetting [("size", .ofInt 0)]])).2.2.2.2
        ?_ ?_ (settings_ownRulesOnly _))
    · decide +kernel
    · rw [hstart.validateValue_eq]
      simp [Value.graft, SequenceKind.isMutable]

end Session

end RuleCheck
