import RuleCheck.Proofs.Session.Declared
import RuleCheck.Proofs.Walk.Failures
import RuleCheck.Proofs.Walk.Lockstep

/-! # The budget of a call is enough

The number of levels that a call provides covers the need of its value, so that a fault of a call is one
of a place that its walk comes to.
-/

namespace RuleCheck.Schema

open Annotation (size)

variable {schema : Schema} (config : Config) (context : Value)

theorem need_le_budget (tagKey : String) (place : Place) :
    Walk.need (max place.declared.size (schema.annotationSize tagKey)) place ≤
      Walk.budget schema tagKey place.declared place.value := by
  exact le_budget tagKey place (Nat.le_succ_of_le (Walk.need_le _ place))

variable (schema) in
/-- A walk from a place ends in a fault for a cause of its own: a place that it came to, or its levels. -/
def Blames (place : Place) (fault : Fault) : Prop :=
  (fault = .tooDeep ∧ ¬ schema.AssignsNothing) ∨
    ∃ rest last, (schema.walk ⟨config, .standard⟩ context).Reaches
        (Walk.budget schema config.tagKey place.declared place.value) place rest last ∧
      (schema.walk ⟨config, .standard⟩ context).OwnFault last fault

theorem blames_of_visit (place : Place) {fault : Fault}
    (h : (schema.visit ⟨config, .standard⟩ context place.writable place.declared place.value
      place.rules).stop = some (.fault fault)) : schema.Blames config context place fault := by
  by_cases hassign : schema.AssignsNothing
  · exact .inr (Walk.reaches_of_fault_of_need (schema.walk_registry config context)
      (schema.walk_views config context) (walk_assignsNothing config context hassign)
      (walk_fieldsBounded config context (Nat.le_max_right _ _)) (Nat.le_max_left _ _)
      (need_le_budget config.tagKey place) h)
  · obtain ⟨rest, last, hreach, ⟨-, hfault⟩ | hown⟩ :=
      Walk.reaches_of_fault (schema.walk_registry config context)
        (schema.walk_views config context) h
    · exact .inl ⟨hfault, hassign⟩
    · exact .inr ⟨rest, last, hreach, hown⟩

variable (schema) in
/-- What may stop a walk from a place: the report of a failed validation, or a fault with its cause. -/
def Explains (place : Place) : Stop → Prop
  | .failed failure => failure.reason.kind ≠ .general
  | .fault fault => schema.Blames config context place fault

theorem explains_of_visit (place : Place) {stop : Stop}
    (h : (schema.visit ⟨config, .standard⟩ context place.writable place.declared place.value
      place.rules).stop = some stop) : schema.Explains config context place stop := by
  cases stop with
  | failed failure =>
      exact Walk.proper_visit place (schema.walk_registry config context) h
  | fault fault => exact blames_of_visit config context place h

/-- A walk whose hooks assign nothing has levels enough. -/
theorem visit_ne_tooDeep (hassign : schema.AssignsNothing) (place : Place) :
    (schema.visit ⟨config, .standard⟩ context place.writable place.declared place.value
      place.rules).stop ≠ some (.fault .tooDeep) :=
  Walk.visit_ne_tooDeep (schema.walk_registry config context) (schema.walk_views config context)
    (walk_assignsNothing config context hassign)
    (walk_fieldsBounded config context (Nat.le_max_right _ _)) (Nat.le_max_left _ _)
    (need_le_budget config.tagKey place)

theorem visit_eq_of_enough (hassign : schema.AssignsNothing) (place : Place) {levels : Nat}
    (henough : ((schema.walk ⟨config, .standard⟩ context).visitAt levels place).stop ≠
      some (.fault .tooDeep)) :
    (schema.walk ⟨config, .standard⟩ context).visitAt levels place =
      schema.visit ⟨config, .standard⟩ context place.writable place.declared place.value place.rules := by
  have hbudget := visit_ne_tooDeep config context hassign place
  rcases Nat.le_total levels (Walk.budget schema config.tagKey place.declared place.value) with hle | hle
  · exact Walk.visit_eq_of_levels _ hle henough
  · exact (Walk.visit_eq_of_levels _ hle hbudget).symm

theorem visit_eq_of_need (hassign : schema.AssignsNothing) (place : Place) {parts levels : Nat}
    (hdeclared : place.declared.size ≤ parts) (hfields : schema.annotationSize config.tagKey ≤ parts)
    (hneed : Walk.need parts place ≤ levels) :
    (schema.walk ⟨config, .standard⟩ context).visitAt levels place =
      schema.visit ⟨config, .standard⟩ context place.writable place.declared place.value place.rules :=
  visit_eq_of_enough config context hassign place
    (Walk.visit_ne_tooDeep (schema.walk_registry config context) (schema.walk_views config context)
      (walk_assignsNothing config context hassign) (walk_fieldsBounded config context hfields) hdeclared
      hneed)

end RuleCheck.Schema
