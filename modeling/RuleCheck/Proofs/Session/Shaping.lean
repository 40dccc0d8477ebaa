import RuleCheck.Proofs.Session.EntryPoints
import RuleCheck.Proofs.Shape.Visits

/-! # What calls make of values

Whatever a call ends in, what it returns and what it leaves in the object that was handed in have the shape of
the value that it was called with.
-/

namespace RuleCheck

namespace Schema

variable {schema : Schema} (config : Config) (context : Value)

theorem shapes_visit (hassign : schema.AssignsNothing) (hdistinct : schema.DistinctNames)
    (writable : Bool) (declared : Annotation) (value : Value) (rules : RuleSet) :
    (schema.visit ⟨config, .standard⟩ context writable declared value rules).Shapes
      (schema.view? config.tagKey) writable declared value :=
  Walk.shapes_visit (Walk.matched_of_standard (schema.walk_registry config context))
    (walk_distinctFields config context hdistinct) (walk_assignsNothing config context hassign) _
    writable declared value rules

/-- A visit without leave to write leaves its place alone. -/
theorem shaped_of_readOnly (hassign : schema.AssignsNothing) (hdistinct : schema.DistinctNames)
    (declared : Annotation) (value : Value) (rules : RuleSet) :
    Shaped (schema.view? config.tagKey) false declared value
      (schema.visit ⟨config, .standard⟩ context false declared value rules).value := by
  have hvisit := shapes_visit config context hassign hdistinct false declared value rules
  have hunwritten : (schema.visit ⟨config, .standard⟩ context false declared value
      rules).replaced = false := by
    cases hreplaced : (schema.visit ⟨config, .standard⟩ context false declared value rules).replaced with
    | false => rfl
    | true => exact (hvisit.writable_of_replaced hreplaced).symm
  have hshaped := hvisit.shaped
  rwa [hunwritten] at hshaped

end Schema

namespace Session

variable {schema : Schema} (config : Config)

/-- Each value of a call for several values is left alone or was left by a visit of its own. -/
theorem Reachable.validate_each {session : Session} (h : Reachable schema session)
    (validator : Validator) {R : Value → Value → Prop} (hrefl : ∀ value, R value value)
    (hvisit : ∀ value, R value
      (value.graft (schema.visit validator .null false .absent value .empty).value))
    (values : List Value) :
    (validate validator values session).1.1.length = values.length ∧
      ∀ (i : Nat) (value state : Value), values[i]? = some value →
        (validate validator values session).1.1[i]? = some state → R value state := by
  induction values generalizing session with
  | nil => simp [validate]
  | cons value values ih =>
      have hfirst := h.validateContext_eq validator .null value
      have hnext := h.context validator .null value
      cases hstop : (schema.visit validator .null false .absent value .empty).stop with
      | some stop =>
          simp only [validate, hfirst, hstop]
          refine ⟨rfl, fun i old state hold hstate => ?_⟩
          cases i with
          | zero =>
              cases hold
              cases hstate
              exact hvisit _
          | succ i =>
              have hsame : some old = some state := hold.symm.trans hstate
              cases hsame
              exact hrefl _
      | none =>
          obtain ⟨hlength, hrest⟩ := ih hnext
          simp only [validate, hfirst, hstop]
          refine ⟨congrArg Nat.succ hlength, fun i old state hold hstate => ?_⟩
          cases i with
          | zero =>
              cases hold
              cases hstate
              exact hvisit _
          | succ i => exact hrest i old state hold hstate

/--
Every call, whether it passes or not, returns a value and leaves an object that a walk can make of the value it
was called with, part by part.  Nothing that is steadfast is ever changed on the way.
-/
theorem calls_shape (hassign : schema.AssignsNothing) (hdistinct : schema.DistinctNames)
    {session : Session} (hsession : Reachable schema session) (value : Value) (rules : String)
    (declared : Annotation) (context : Value) (values : List Value) :
    let direct := (session.validateValue ⟨config, .standard⟩ value rules declared context).1
    let plain := (session.validateContext ⟨config, .standard⟩ context value).1
    let states := (validate ⟨config, .standard⟩ values session).1.1
    ((∃ written, Shaped (schema.view? config.tagKey) written declared value direct.value) ∧
        Shaped (schema.view? config.tagKey) false declared value direct.state) ∧
      (Shaped (schema.view? config.tagKey) false .absent value plain.value ∧
        Shaped (schema.view? config.tagKey) false .absent value plain.state) ∧
      (states.length = values.length ∧ ∀ (i : Nat) (old state : Value), values[i]? = some old →
        states[i]? = some state → Shaped (schema.view? config.tagKey) false .absent old state) ∧
      ∀ (written : Bool) (declared : Annotation) (old new : Value),
        Shaped (schema.view? config.tagKey) written declared old new → old.Steadfast → new = old := by
  intro direct plain states
  have hdirect : direct = _ :=
    hsession.validateValue_eq ⟨config, .standard⟩ value rules declared context
  have hplain : plain = _ := hsession.validateContext_eq ⟨config, .standard⟩ context value
  have hwritable := Schema.shapes_visit config context hassign hdistinct true declared value
    (.parse rules)
  have hreadOnly := Schema.shaped_of_readOnly config context hassign hdistinct .absent value .empty
  refine ⟨?_, ?_, ?_, fun _ _ _ _ => Shaped.eq_of_steadfast⟩
  · rw [hdirect]
    exact ⟨⟨_, hwritable.shaped⟩, hwritable.shaped.graft⟩
  · rw [hplain]
    exact ⟨hreadOnly, hreadOnly.graft⟩
  · apply hsession.validate_each ⟨config, .standard⟩
    · exact fun value => .same .absent value
    · exact fun value =>
        (Schema.shaped_of_readOnly config .null hassign hdistinct .absent value .empty).graft

/-- A number that is refused is returned as it was, whatever the rules would put in place of a zero. -/
theorem calls_shape_seven :
    settings.AssignsNothing ∧ settings.DistinctNames ∧ Reachable settings (.start settings) ∧
      ((start settings).validateValue .standard (.ofInt 7) "default=5,val<3" .absent
        .null).1.stop ≠ none ∧
      ((start settings).validateValue .standard (.ofInt 7) "default=5,val<3" .absent
        .null).1.value = .ofInt 7 := by
  have hassign : settings.AssignsNothing :=
    Schema.assignsNothing_of_methods (by simp [settings, RecordDecl.methods])
  have hdistinct : settings.DistinctNames := by simp [Schema.DistinctNames, settings]
  have hstart := @Reachable.start settings
  obtain ⟨⟨⟨written, hshaped⟩, -⟩, -, -, hsteadfast⟩ := calls_shape .standard hassign hdistinct
    hstart (.ofInt 7) "default=5,val<3" .absent .null []
  refine ⟨hassign, hdistinct, hstart, ?_, hsteadfast written _ _ _ hshaped ?_⟩
  · decide +kernel
  · apply Value.Steadfast.scalar
    · simp
    · intro kind
      cases kind <;> simp only [ScalarKind.isZero, ne_eq, Except.ok.injEq, reduceCtorEq,
        not_false_eq_true] <;> decide +kernel

end Session

end RuleCheck
