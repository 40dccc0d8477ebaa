import RuleCheck.Hook.Actions
import RuleCheck.Proofs.Session.Declared
import RuleCheck.Proofs.Walk.Grounded

/-! # Calls come to an end

The budget of a call covers all levels that its walk can need, whatever evaluators serve the categories, as
long as they are grounded and hooks assign no fields.  Record types may refer to themselves and to one
another.
-/

namespace RuleCheck

namespace Schema

variable {schema : Schema}

theorem levelsOf_le_budget (tagKey : String) (place : Place) :
    Walk.levelsOf (max place.declared.size (schema.annotationSize tagKey)) place ≤
      Walk.budget schema tagKey place.declared place.value := by
  have hspread := place.value.spread_le
  refine le_budget tagKey place ?_
  unfold Walk.levelsOf
  omega

theorem visit_ends (hassign : schema.AssignsNothing) {validator : Validator}
    (hground : validator.registry.Grounded) (context : Value) (place : Place) :
    (schema.visit validator context place.writable place.declared place.value place.rules).stop ≠
      some (.fault .tooDeep) := by
  have hnothing : (schema.walk validator context).AssignsNothing :=
    walk_assignsNothing validator.config context hassign
  have hfields : (schema.walk validator context).FieldsBounded
      (max place.declared.size (schema.annotationSize validator.config.tagKey)) :=
    walk_fieldsBounded validator.config context (Nat.le_max_right _ _)
  exact Walk.visitAt_ne_tooDeep hground.optional hground.sequence hnothing hfields
    (Nat.le_max_left _ _) (levelsOf_le_budget validator.config.tagKey place)

/-- A visit goes on to a smaller value, or to the same value with a smaller annotation. -/
theorem dispatches_descend (hassign : schema.AssignsNothing) {validator : Validator}
    (hground : validator.registry.Grounded) (context : Value) {levels : Nat} {place next : Place}
    (h : (schema.walk validator context).Dispatches levels place next) : Walk.Descends next place := by
  have hnothing : (schema.walk validator context).AssignsNothing :=
    walk_assignsNothing validator.config context hassign
  have hfields : (schema.walk validator context).FieldsBounded
      (schema.annotationSize validator.config.tagKey) :=
    walk_fieldsBounded validator.config context (Nat.le_refl _)
  exact (h.follows hground.optional hground.sequence hnothing hfields).descends

end Schema

namespace Session

variable {schema : Schema} {session : Session}

/--
As long as hooks assign no fields and the evaluators are grounded, no call runs out of the levels that it
provides: every visit goes on to a smaller value, or to the same value with a smaller annotation.  With any
other registry there is a value that no number of levels is enough for.  The search for a category ends
before an annotation has no more layers to take off.
-/
theorem calls_end (hreach : Reachable schema session) (hassign : schema.AssignsNothing)
    (validator : Validator) :
    (validator.registry.Grounded →
      (∀ value rules declared context,
        (session.validateValue validator value rules declared context).1.stop ≠
          some (.fault .tooDeep)) ∧
      (∀ context value,
        (session.validateContext validator context value).1.stop ≠ some (.fault .tooDeep)) ∧
      (∀ values, (validate validator values session).1.2 ≠ some (.fault .tooDeep)) ∧
      ∀ context levels place next, (schema.walk validator context).Dispatches levels place next →
        Walk.Descends next place) ∧
    (¬ validator.registry.Grounded → ∃ value, ∀ context levels,
      ((schema.walk validator context).visitAt levels (Walk.plainPlace value)).stop =
        some (.fault .tooDeep)) ∧
    ∀ declared : Annotation, ∃ noted last,
      Annotation.peel (declared.size - 1) (false, declared) = some (noted, last) ∧
        Annotation.peel? (noted, last) = none ∧
        ∀ value : Value, value.resolve declared = value.resolveAs noted last := by
  refine ⟨fun hground => ⟨?_, ?_, ?_, ?_⟩, fun hloose => ?_, fun declared => ?_⟩
  · intro value rules declared context
    rw [hreach.validateValue_eq]
    exact Schema.visit_ends hassign hground context ⟨true, declared, value, .parse rules⟩
  · intro context value
    rw [hreach.validateContext_eq]
    exact Schema.visit_ends hassign hground context (Walk.plainPlace value)
  · intro values hstop
    obtain ⟨value, -, hdeep⟩ := hreach.validate_stopped validator values hstop
    exact Schema.visit_ends hassign hground .null (Walk.plainPlace value) hdeep
  · exact fun context levels place next => Schema.dispatches_descend hassign hground context
  · obtain ⟨category, hendless⟩ := Walk.exists_endless hloose
    exact ⟨Walk.sample category, fun context => hendless _ rfl⟩
  · exact Annotation.peel_ends false declared (by omega)

/-- A chain of nodes, each of which may hold the next one. -/
def node : RecordHead :=
  ⟨"Node", .data, false⟩

def nodes : Schema :=
  ⟨[("Node", .record node)],
    [⟨node, [⟨"next", .union [.forward "Node", .null], [("rules", "main,on next")]⟩], 
      some (.ofActions []), none⟩]⟩

/-- The standard evaluators, but unsigned integers are taken for optional values. -/
def looseIntegers : Registry :=
  ⟨(.uint, .optional) :: Registry.standard.entries⟩

/-- A walk through a chain of nodes ends, although nodes hold nodes and rules are passed on. -/
theorem calls_end_nodes :
    nodes.AssignsNothing ∧ looseIntegers.Grounded ∧
      ((start nodes).validateValue ⟨.standard, looseIntegers⟩
        (.record node [("next", .record node [("next", .null)])]) "on next,required" .absent
        .null).1.stop ≠ some (.fault .tooDeep) := by
  have hassign : nodes.AssignsNothing := Schema.assignsNothing_of_methods (by
    simp [nodes, RecordDecl.methods, Hook.assignsNothing_ofActions])
  have hground : looseIntegers.Grounded := by
    refine ⟨fun category hserved => ?_, by decide⟩
    cases category <;> first | exact .inl rfl | exact .inr rfl | cases hserved
  exact ⟨hassign, hground,
    ((calls_end .start hassign ⟨.standard, looseIntegers⟩).1 hground).1 _ _ _ _⟩

/-- Bytes that are taken for an optional value are visited again and again, on any number of levels. -/
theorem taken_optional_endless :
    let validator : Validator := ⟨.standard, ⟨[(.unsupported, .optional)]⟩⟩
    let place := Walk.plainPlace (.foreign (.bytes [0]))
    ((start .empty).validateValue validator (.foreign (.bytes [0])) "" .absent .null).1.stop =
        some (.fault .tooDeep) ∧
      ∀ levels, (Schema.empty.walk validator .null).Dispatches levels place place ∧
        ((Schema.empty.walk validator .null).visitAt levels place).stop = some (.fault .tooDeep) := by
  refine ⟨by decide +kernel, fun levels => ?_⟩
  exact Walk.tooDeep_of_taken_optional rfl rfl rfl levels

end Session

end RuleCheck
