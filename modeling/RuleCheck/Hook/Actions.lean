import RuleCheck.Hook
import RuleCheck.Value.Depth
import RuleCheck.Value.Equality

/-!
# Hooks made of actions

Hooks that are written down as actions.  An action may depend on one field of the record and on the context;
it may assign a field and may raise something.
-/

namespace RuleCheck

inductive HookCondition where
  | fieldIs (field : String) (value : Value)
  | fieldExceeds (field : String) (value : Value)
  | noContext
  | contextIs (value : Value)
  | fieldExceedsContext (field : String)

structure HookAction where
  condition : Option HookCondition
  assign : Option (String × Value)
  raise : Option HookRaise

namespace Value

def exceeds (a b : Value) : Except Fault Bool :=
  let fault := Fault.unordered ">" a.classOf.fullName b.classOf.fullName
  match a.scalar?, b.scalar? with
  | some x, some y =>
    match x.order? y with
    | some order => .ok order.greater
    | none =>
      match x, y with
      | .moment _, .moment _ => .error .mixedOffsets
      | _, _ => .error fault
  | _, _ => .error fault

theorem exceeds_eq_error {a b : Value} {fault : Fault} (h : a.exceeds b = .error fault) :
    fault.kind = .type := by
  unfold exceeds at h
  simp only at h
  split at h
  · split at h
    · cases h
    · split at h <;> (cases h; rfl)
  · cases h
    rfl

theorem assignField_eq_error {record new : Value} {name : String} {fault : Fault}
    (h : record.assignField name new = .error fault) :
    fault.kind = .access ∨ fault.kind = .frozenField := by
  unfold assignField at h
  split at h
  · split at h
    · cases h
      exact .inl rfl
    · split at h <;> cases h
      exact .inr rfl
  · cases h
    exact .inl rfl

end Value

namespace HookCondition

def read (record : Value) (name : String) : Except Fault Value :=
  match record.field? name with
  | some value => .ok value
  | none => .error (.noAttribute record.classOf.fullName name)

def holds (record context : Value) : HookCondition → Except Fault Bool
  | fieldIs name value => (read record name).map fun own => own.same value
  | fieldExceeds name value => do (← read record name).exceeds value
  | noContext => .ok context.isNull
  | contextIs value => .ok (context.same value)
  | fieldExceedsContext name =>
    if context.isNull then .ok false else do (← read record name).exceeds context

theorem read_eq_error {record : Value} {name : String} {fault : Fault}
    (h : read record name = .error fault) : fault.kind = .access := by
  unfold read at h
  split at h
  · cases h
  · cases h
    rfl

theorem read_exceeds_eq_error {record other : Value} {name : String} {fault : Fault}
    (h : (do (← read record name).exceeds other) = Except.error fault) :
    fault.kind = .type ∨ fault.kind = .access := by
  cases hown : read record name with
  | error own =>
      simp only [hown, bind, Except.bind, Except.error.injEq] at h
      subst h
      exact .inr (read_eq_error hown)
  | ok own =>
      simp only [hown, bind, Except.bind] at h
      exact .inl (Value.exceeds_eq_error h)

theorem holds_eq_error {record context : Value} {condition : HookCondition} {fault : Fault}
    (h : condition.holds record context = .error fault) :
    fault.kind = .type ∨ fault.kind = .access := by
  cases condition with
  | fieldIs name value =>
      simp only [holds] at h
      cases hown : read record name with
      | error own =>
          simp only [hown, Except.map, Except.error.injEq] at h
          subst h
          exact .inr (read_eq_error hown)
      | ok own => simp [hown, Except.map] at h
  | fieldExceeds name value => exact read_exceeds_eq_error h
  | noContext => simp [holds] at h
  | contextIs value => simp [holds] at h
  | fieldExceedsContext name =>
      simp only [holds] at h
      split at h
      · cases h
      · exact read_exceeds_eq_error h

end HookCondition

namespace HookAction

def applies (action : HookAction) (record context : Value) : Except Fault Bool :=
  match action.condition with
  | some condition => condition.holds record context
  | none => .ok true

/-- The record after the assignment that an action makes, if any. -/
def assigned (action : HookAction) (record : Value) : Except Fault Value :=
  match action.assign with
  | none => .ok record
  | some (name, value) => record.assignField name value

/-- The number of levels of the value that an action assigns. -/
def depth (action : HookAction) : Nat :=
  match action.assign with
  | some (_, value) => value.depth
  | none => 0

end HookAction

/-- Runs actions on a record: the record afterwards, and what stopped them. -/
def runActions (context : Value) : List HookAction → Value → Value × Option Raised
  | [], record => (record, none)
  | action :: rest, record =>
    match action.applies record context with
    | .error fault => (record, some (.fault fault))
    | .ok false => runActions context rest record
    | .ok true =>
      match action.assigned record with
      | .error fault => (record, some (.fault fault))
      | .ok record =>
        match action.raise with
        | some r => (record, some (.deliberate r))
        | none => runActions context rest record

theorem assigned_runActions (context : Value) (actions : List HookAction) (record : Value) :
    record.Assigned (runActions context actions record).1 := by
  induction actions generalizing record with
  | nil => exact .refl record
  | cons action rest ih =>
      unfold runActions
      split
      · exact .refl record
      · exact ih record
      · split
        · exact .refl record
        · rename_i next hassigned
          have hnext {last : Value} (hlast : next.Assigned last) : record.Assigned last := by
            unfold HookAction.assigned at hassigned
            split at hassigned
            · cases hassigned
              exact hlast
            · exact .step hassigned hlast
          split
          · exact hnext (.refl next)
          · exact hnext (ih next)

theorem HookAction.applies_ne_tooDeep (action : HookAction) (record context : Value) :
    action.applies record context ≠ .error .tooDeep := by
  intro h
  unfold applies at h
  split at h
  · rcases HookCondition.holds_eq_error h with hkind | hkind <;> simp [Fault.kind] at hkind
  · cases h

theorem HookAction.assigned_ne_tooDeep (action : HookAction) (record : Value) :
    action.assigned record ≠ .error .tooDeep := by
  intro h
  unfold assigned at h
  split at h
  · cases h
  · rcases Value.assignField_eq_error h with hkind | hkind <;> simp [Fault.kind] at hkind

theorem runActions_ne_tooDeep (context record : Value) (actions : List HookAction) :
    (runActions context actions record).2 ≠ some (.fault .tooDeep) := by
  induction actions generalizing record with
  | nil => simp [runActions]
  | cons action rest ih =>
      unfold runActions
      split
      · rename_i fault hfault
        rintro ⟨⟩
        exact action.applies_ne_tooDeep record context hfault
      · exact ih record
      · split
        · rename_i fault hfault
          rintro ⟨⟩
          exact action.assigned_ne_tooDeep record hfault
        · rename_i next _
          split
          · simp
          · exact ih next

namespace Hook

def ofActions (actions : List HookAction) : Hook where
  isMethod := true
  depth := (actions.map HookAction.depth).foldl max 0
  body context record := runActions context actions record
  assigned context record := assigned_runActions context actions record
  raised_ne context record := runActions_ne_tooDeep context record actions

theorem assignsNothing_ofActions {actions : List HookAction} (h : ∀ action ∈ actions, action.assign = none) :
    (ofActions actions).AssignsNothing := by
  intro context record
  show (runActions context actions record).1 = record
  induction actions with
  | nil => rfl
  | cons action rest ih =>
      have hrest := ih fun other hother => h other (List.mem_cons_of_mem action hother)
      have hassigned : action.assigned record = .ok record := by
        rw [HookAction.assigned, h action List.mem_cons_self]
      unfold runActions
      rw [hassigned]
      split
      · rfl
      · exact hrest
      · simp only
        split
        · rfl
        · exact hrest

end Hook

end RuleCheck
