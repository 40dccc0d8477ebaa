import RuleCheck.Failure
import RuleCheck.Class

/-!
# Hooks

A record type may come with hooks that run on each of its records once the fields have passed.  A hook sees
its record and the context of the walk.  It may assign fields of the record and may raise something, and is
otherwise any function of the two.  What it raises as a bad value or a broken assertion refuses the record;
an error of validation and anything else is passed on.

A field can have the name of a hook.  It is found in its place, and it cannot be called.
-/

namespace RuleCheck

namespace Value

def field? (record : Value) (name : String) : Option Value :=
  match record with
  | .record _ slots => slots.lookup name
  | _ => none

def assignField (record : Value) (name : String) (value : Value) : Except Fault Value :=
  match record with
  | .record head slots =>
    if head.isTuple then .error .tupleField
    else if head.frozen then .error (.frozenField name)
    else .ok (.record head (slots.map fun (n, old) => (n, if n == name then value else old)))
  | other => .error (.noAttribute other.classOf.fullName name)

/-- What comes of assigning fields of a record, one after another. -/
inductive Assigned : Value → Value → Prop
  | refl (record : Value) : Assigned record record
  | step {record next last : Value} {name : String} {value : Value}
      (hassign : record.assignField name value = .ok next) (hrest : Assigned next last) :
      Assigned record last

end Value

/--
What a hook may stop a walk with: a fault that is no bad value, since a bad value refuses the record, or the
report of a failed validation.  Running out of levels is no fault of a hook.
-/
def Stop.OfHook : Stop → Prop
  | .fault cause => cause.kind ≠ .value ∧ cause ≠ .tooDeep
  | .failed failure => failure.reason.kind ≠ .general

/-- An exception that a hook raises on purpose. -/
structure HookRaise where
  exception : HookException
  message : Option String
  path : List String

namespace HookRaise

def stop (r : HookRaise) : Stop :=
  match r.exception with
  | .value | .unicode | .assertion =>
    let message :=
      match r.message with
      | none | some "" => r.exception.name
      | some message => message
    .refuse (.hookRefused message r.exception)
  | .runtime | .key => .fault (.raised r.exception (r.message.getD ""))
  | .report .general => .fault (.raised r.exception (ReportKind.general.messageOr r.message))
  | .report kind => .failed ⟨.reported kind (kind.messageOr r.message), r.path⟩

theorem stop_ofHook (r : HookRaise) : r.stop.OfHook := by
  unfold stop
  split <;> rename_i hexception
  iterate 3 exact show ReportKind.hook ≠ .general by decide
  iterate 3 exact ⟨by simp [Fault.kind, hexception], by simp⟩
  rename_i kind hgeneral
  exact fun h => hgeneral h

end HookRaise

/-- What the body of a hook is left with: an exception raised on purpose, or a fault on the way. -/
inductive Raised where
  | deliberate (r : HookRaise)
  | fault (cause : Fault)

namespace Raised

/-- What the call of a hook makes of what its body raises.  A fault that is a bad value refuses the record. -/
def stop : Raised → Stop
  | deliberate r => r.stop
  | fault (.raised exception message) => HookRaise.stop ⟨exception, some message, []⟩
  | fault cause =>
    if cause.kind = .value then .refuse (.hookRefused cause.message .value) else .fault cause

theorem stop_ofHook {raised : Raised} (hlevels : raised ≠ .fault .tooDeep) : raised.stop.OfHook := by
  unfold stop
  split
  · exact HookRaise.stop_ofHook _
  · exact HookRaise.stop_ofHook _
  · rename_i cause _
    split
    · exact show ReportKind.hook ≠ .general by decide
    · rename_i hkind
      exact ⟨hkind, fun h => hlevels (h ▸ rfl)⟩

end Raised

/-- A hook of a record type. -/
structure Hook where
  /-- Whether it is a method.  Calls of methods are told. -/
  isMethod : Bool
  /-- The levels that are set aside for values that it assigns. -/
  depth : Nat
  /-- The record afterwards, and what is raised. -/
  body : (context record : Value) → Value × Option Raised
  assigned : ∀ context record : Value, record.Assigned (body context record).1
  raised_ne : ∀ context record : Value, (body context record).2 ≠ some (.fault .tooDeep)

namespace Hook

/-- Calls a hook: the record afterwards, and what stops the walk. -/
def run (hook : Hook) (context record : Value) : Value × Option Stop :=
  ((hook.body context record).1, (hook.body context record).2.map Raised.stop)

theorem ofHook (hook : Hook) (context record : Value) (stop : Stop)
    (h : (hook.run context record).2 = some stop) : stop.OfHook := by
  obtain ⟨raised, hraised, rfl⟩ := Option.map_eq_some_iff.mp h
  exact Raised.stop_ofHook fun hlevels => hook.raised_ne context record (hlevels ▸ hraised)

/-- A field in the place of a hook.  The missing value counts as no hook, unless `found` says that it does. -/
def ofField (name : String) (found : Bool) : Hook where
  isMethod := false
  depth := 0
  body _ record :=
    (record,
      match record.field? name with
      | some value =>
        if value.isNull && !found then none
        else some (.fault (.notCallable value.classOf.fullName))
      | none => none)
  assigned _ record := .refl record
  raised_ne context record h := by
    dsimp only at h
    split at h
    · split at h <;> cases h
    · cases h

def AssignsNothing (hook : Hook) : Prop :=
  ∀ context record, (hook.run context record).1 = record

def RaisesNoPaths (hook : Hook) : Prop :=
  ∀ context record failure, (hook.run context record).2 = some (.failed failure) → failure.path = []

theorem raisesNoPaths_ofField (name : String) (found : Bool) : (ofField name found).RaisesNoPaths := by
  intro context record failure h
  obtain ⟨raised, hraised, hstop⟩ := Option.map_eq_some_iff.mp h
  simp only [ofField] at hraised
  split at hraised
  · split at hraised <;> cases hraised
    simp [Raised.stop, Fault.kind] at hstop
  · cases hraised

end Hook

end RuleCheck
