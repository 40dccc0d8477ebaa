import RuleCheck.Category
import RuleCheck.Failure

/-!
# Visits

The outcome of a visit to a value: the value afterwards, whether the place that holds it was written,
what happened on the way, and what stopped the visit.  A visit that stops still has a value, with all
changes made before.
-/

namespace RuleCheck

inductive Event where
  /-- A rule text was read. -/
  | rulesRead (text : String)
  /-- The fields of a record type were read, with the key of the attached texts if one was given. -/
  | fieldsRead (typeName : String) (tagKey : Option String)
  /-- A value was left alone, for nothing evaluates its category. -/
  | skipped (category : Category) (className : String)
  /-- A place was written. -/
  | wrote
  /-- A hook was called: with the context of the walk, or without one. -/
  | called (typeName : String) (context : Option Value)

/-- The outcome of a visit. -/
structure Visit where
  value : Value
  /-- Whether the place that holds the value was written, and not only what the value refers to. -/
  replaced : Bool
  events : List Event
  stop : Option Stop

namespace Visit

def pass (value : Value) : Visit :=
  ⟨value, false, [], none⟩

def halt (value : Value) (stop : Stop) : Visit :=
  ⟨value, false, [], some stop⟩

def refuse (value : Value) (reason : Reason) : Visit :=
  halt value (.refuse reason)

def abort (value : Value) (fault : Fault) : Visit :=
  halt value (.fault fault)

def after (events : List Event) (visit : Visit) : Visit :=
  { visit with events := events ++ visit.events }

/-- One visit, and if nothing stopped it another one to the value it left. -/
def andThen (visit : Visit) (next : Value → Visit) : Visit :=
  match visit.stop with
  | some _ => visit
  | none =>
    let second := next visit.value
    ⟨second.value, visit.replaced || second.replaced, visit.events ++ second.events, second.stop⟩

@[simp] theorem andThen_pass (value : Value) (next : Value → Visit) :
    (pass value).andThen next = next value := by
  simp [andThen, pass]

@[simp] theorem andThen_halt (value : Value) (stop : Stop) (next : Value → Visit) :
    (halt value stop).andThen next = halt value stop := rfl

theorem andThen_assoc (visit : Visit) (next last : Value → Visit) :
    (visit.andThen next).andThen last = visit.andThen fun value => (next value).andThen last := by
  cases h : visit.stop with
  | some stop => simp [andThen, h]
  | none =>
    cases h' : (next visit.value).stop <;>
      simp [andThen, h, h', Bool.or_assoc, List.append_assoc]

end Visit

end RuleCheck
