import RuleCheck.Proofs.Session.Budget
import RuleCheck.Proofs.Visit.Escaping

/-! # Faults of calls

A call that is not stopped by the report of a failed validation is stopped by a fault.  Beside what hooks
raise, there are few faults: a rule that cannot be used, nothing in the place of a box, a field that a
record lacks, and more items than can be told.  Hooks that assign fields may in addition let a walk run
out of levels.
-/

namespace RuleCheck

namespace Schema

variable (schema : Schema) (config : Config) (context : Value)

theorem visit_null_box (writable : Bool) (rules : RuleSet) :
    (schema.visit ⟨config, .standard⟩ context writable (.bare (.builtIn .box)) .null rules).stop =
      some (.fault (.noAttribute "NoneType" "value")) := by
  unfold visit Walk.budget
  rfl

theorem visit_oversized {value : Value} (h : value.isOversized = true) (writable : Bool) :
    (schema.visit ⟨config, .standard⟩ context writable .absent value .empty).stop =
      some (.fault .tooLong) := by
  cases value with
  | range start stop step =>
      have hsequence (descend : Bool → Annotation → Value → RuleSet → Visit) (resolved : Resolved) :
          (Visit.sequence descend writable resolved (.range start stop step) .empty).stop =
            some (.fault .tooLong) := by
        simp [Visit.sequence, Value.isNull, RuleSet.checkLength, RuleSet.empty,
          RuleSet.checkLengthTokens, h, Visit.abort, Visit.halt]
      unfold visit Walk.budget
      exact hsequence _ _
  | _ => simp [Value.isOversized] at h

end Schema

namespace Session

variable {schema : Schema} {session : Session}

/--
A call ends with the report of a failed validation, or in a fault for one of the causes that are listed,
and a fault that the call of a hook passes on is no bad value.  A token that cannot be used, nothing in
the place of a box, and a range with too many items each do end a call in a fault.  Names in annotations
are not dotted and not malformed: looking up such names could fail in ways that are not listed.
-/
theorem fault_causes (hreach : Reachable schema session) (config : Config) (fault : Fault) :
    (∀ value rules declared context stop,
      (session.validateValue ⟨config, .standard⟩ value rules declared context).1.stop =
          some stop →
        schema.Explains config context ⟨true, declared, value, .parse rules⟩ stop) ∧
    (∀ context value stop,
      (session.validateContext ⟨config, .standard⟩ context value).1.stop = some stop →
        schema.Explains config context ⟨false, .absent, value, .empty⟩ stop) ∧
    (∀ values stop, (validate ⟨config, .standard⟩ values session).1.2 = some stop →
      ∃ value ∈ values, schema.Explains config .null ⟨false, .absent, value, .empty⟩ stop) ∧
    (∀ (hook : Hook) context record, (hook.run context record).2 = some (.fault fault) →
      fault.kind ≠ .value) ∧
    (∀ (kind : ScalarKind) token rules context, kind.Escapes token fault →
      RuleSet.parse rules = ⟨[token]⟩ →
      (session.validateValue ⟨config, .standard⟩ .null rules kind.declared context).1.stop =
        some (.fault fault)) ∧
    (∀ rules context,
      (session.validateValue ⟨config, .standard⟩ .null rules (.bare (.builtIn .box))
        context).1.stop = some (.fault (.noAttribute "NoneType" "value"))) ∧
    ∀ context value, value.isOversized = true →
      (session.validateContext ⟨config, .standard⟩ context value).1.stop =
        some (.fault .tooLong) := by
  refine ⟨?_, ?_, ?_, ?_, ?_, ?_, ?_⟩
  · intro value rules declared context stop h
    rw [hreach.validateValue_eq] at h
    exact Schema.explains_of_visit config context ⟨true, declared, value, .parse rules⟩ h
  · intro context value stop h
    rw [hreach.validateContext_eq] at h
    exact Schema.explains_of_visit config context ⟨false, .absent, value, .empty⟩ h
  · intro values stop h
    obtain ⟨value, hvalue, hstop⟩ := hreach.validate_stopped _ values h
    exact ⟨value, hvalue,
      Schema.explains_of_visit config .null ⟨false, .absent, value, .empty⟩ hstop⟩
  · intro hook context record h
    exact (hook.ofHook context record _ h).1
  · intro kind token rules context hescapes hrules
    rw [hreach.validateValue_eq, hrules]
    simp only [Schema.visit_null_declared]
    exact hescapes.visit_null true
  · intro rules context
    rw [hreach.validateValue_eq]
    exact schema.visit_null_box config context true (.parse rules)
  · intro context value h
    rw [hreach.validateContext_eq]
    exact schema.visit_oversized config context h false

theorem escapes_hours :
    ScalarKind.duration.Escapes "val<99999999999h" (.durationOverflow ⟨4166666666⟩) :=
  .threshold (c := ⟨"val", .lt, "99999999999h", "val<99999999999h"⟩) rfl rfl

/-- A threshold of more hours than a duration can hold ends the visit to nothing in an overflow. -/
theorem fault_causes_hours :
    Reachable .empty (.start .empty) ∧
      ((start .empty).validateValue .standard .null "val<99999999999h"
        (.bare (.builtIn .duration)) .null).1.stop =
          some (.fault (.durationOverflow ⟨4166666666⟩)) := by
  have hstart := @Reachable.start .empty
  refine ⟨hstart, ?_⟩
  exact (fault_causes hstart .standard (.durationOverflow ⟨4166666666⟩)).2.2.2.2.1 .duration
    "val<99999999999h" "val<99999999999h" .null escapes_hours (by decide)

/-- Without any hook, a threshold that cannot be held makes a call end in an overflow. -/
theorem threshold_overflows :
    Schema.empty.records = [] ∧
      ((start .empty).validateValue .standard (.ofScalar (.duration ⟨5⟩)) "val<99999999999h"
        .absent .null).1.stop = some (.fault (.durationOverflow ⟨4166666666⟩)) ∧
      (Fault.durationOverflow ⟨4166666666⟩).kind = .overflow := by
  refine ⟨rfl, ?_, rfl⟩
  decide +kernel

end Session

end RuleCheck
