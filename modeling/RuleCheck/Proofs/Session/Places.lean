import RuleCheck.Proofs.Session.Termination
import RuleCheck.Proofs.Walk.Coming

/-! # The places that a call comes to

Wherever the walk of a call comes to, the visit there is that of a call of its own for the value that is
found, with the annotation, the rules and the leave to be written that its place gives it.
-/

namespace RuleCheck

theorem Registry.grounded_standard : Registry.standard.Grounded where
  optional category hserved := .inl (Registry.category_of_standard hserved).symm
  sequence := by decide

namespace Schema

/-- The places that the walk of a call for a place comes to, each with the number of levels left there. -/
def ComesTo (schema : Schema) (validator : Validator) (context : Value) (place : Place) (rest : Nat)
    (last : Place) : Prop :=
  (schema.walk validator context).ComesTo
    (Walk.budget schema validator.config.tagKey place.declared place.value) place rest last

variable {schema : Schema} {validator : Validator} {context : Value} {place last : Place} {rest : Nat}

theorem ComesTo.visitAt_eq (hassign : schema.AssignsNothing) (hground : validator.registry.Grounded)
    (h : schema.ComesTo validator context place rest last) :
    (schema.walk validator context).visitAt rest last =
      schema.visit validator context last.writable last.declared last.value last.rules := by
  have hnothing : (schema.walk validator context).AssignsNothing :=
    walk_assignsNothing validator.config context hassign
  have hfields : (schema.walk validator context).FieldsBounded
      (max place.declared.size (schema.annotationSize validator.config.tagKey)) :=
    walk_fieldsBounded validator.config context (Nat.le_max_right _ _)
  obtain ⟨hlevels, hsize⟩ := h.levelsOf_le hground.optional hground.sequence hnothing hfields
    (Nat.le_max_left _ _) (levelsOf_le_budget validator.config.tagKey place)
  have hrest := Walk.visitAt_ne_tooDeep hground.optional hground.sequence hnothing hfields hsize hlevels
  have hbudget := visit_ends hassign hground context last
  rcases Nat.le_total rest (Walk.budget schema validator.config.tagKey last.declared last.value) with
    hle | hle
  · exact Walk.visit_eq_of_levels _ hle hrest
  · exact (Walk.visit_eq_of_levels _ hle hbudget).symm

/-- The rules that come to a place can be read from a rule text, if those of the call are. -/
theorem ComesTo.written (h : schema.ComesTo validator context place rest last)
    (hrules : place.rules.Written) : last.rules.Written :=
  Walk.ComesTo.written RuleSet.written_parse h hrules

/-- What stops the visit to a place stops the call, seen from further up. -/
theorem ComesTo.stops (hassign : schema.AssignsNothing) (hground : validator.registry.Grounded)
    (h : schema.ComesTo validator context place rest last) {stop : Stop}
    (hstop : (schema.visit validator context last.writable last.declared last.value last.rules).stop =
      some stop) :
    ∃ segments, (schema.visit validator context place.writable place.declared place.value
      place.rules).stop = some (stop.through segments) := by
  rw [← h.visitAt_eq hassign hground] at hstop
  exact Walk.ComesTo.stopped h hstop

end Schema

end RuleCheck
