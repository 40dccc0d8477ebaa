import RuleCheck.Proofs.Visit.Passing
import RuleCheck.Walk

/-! # What a walk knows of record types

Two things are asked of the record types that a walk knows: their fields have different names, and their
hooks, if they have any, assign none of them.  Such hooks find and leave the same record.
-/

namespace RuleCheck.Walk

/-- Whether the fields of every record type have different names. -/
def DistinctFields (walk : Walk) : Prop :=
  ∀ base view, walk.view? base = some view → (view.fields.map Field.name).Nodup

def AssignsNothing (walk : Walk) : Prop :=
  ∀ base view, walk.view? base = some view → ∀ hook ∈ view.hooks, hook.AssignsNothing

def Hookless (walk : Walk) : Prop :=
  ∀ base view, walk.view? base = some view → view.selfHook = none ∧ view.contextHook = none

variable {walk : Walk}

theorem Hookless.assignsNothing (h : walk.Hookless) : walk.AssignsNothing := by
  intro base view hview hook hhook
  obtain ⟨hself, hcontext⟩ := h base view hview
  simp [RecordView.hooks, hself, hcontext] at hhook

theorem hooks_of_hookless {view : RecordView} (h : view.selfHook = none ∧ view.contextHook = none)
    (context record : Value) : Visit.hooks view context record = .pass record := by
  simp [Visit.hooks, Visit.hook, h.1, h.2]

theorem AssignsNothing.elim {P : Prop} (h : walk.AssignsNothing) {base : Class} {view : RecordView}
    (hview : walk.view? base = some view) {hook : Hook} (hhook : hook ∈ view.hooks)
    (hassigns : ¬hook.AssignsNothing) : P :=
  absurd (h base view hview hook hhook) hassigns

theorem hook_value_of_assignsNothing (typeName : String) (called : Option Value)
    (context record : Value) {method : Option Hook} (h : ∀ hook ∈ method, hook.AssignsNothing) :
    (Visit.hook typeName called context method record).value = record ∧
      (Visit.hook typeName called context method record).replaced = false := by
  cases method with
  | none => exact ⟨rfl, rfl⟩
  | some hook => exact ⟨h hook rfl context record, rfl⟩

theorem selfHook_assignsNothing (hassign : walk.AssignsNothing) {base : Class} {view : RecordView}
    (hview : walk.view? base = some view) : ∀ hook ∈ view.selfHook, hook.AssignsNothing :=
  fun hook hhook => hassign base view hview hook (List.mem_append_left _ (Option.mem_toList.2 hhook))

theorem contextHook_assignsNothing (hassign : walk.AssignsNothing) {base : Class} {view : RecordView}
    (hview : walk.view? base = some view) : ∀ hook ∈ view.contextHook, hook.AssignsNothing :=
  fun hook hhook => hassign base view hview hook (List.mem_append_right _ (Option.mem_toList.2 hhook))

/-- Hooks that assign nothing leave the record, whether they stop the visit or not. -/
theorem hooks_value_of_assignsNothing (hassign : walk.AssignsNothing) {base : Class} {view : RecordView}
    (hview : walk.view? base = some view) (record : Value) :
    (Visit.hooks view walk.context record).value = record := by
  have hself := (hook_value_of_assignsNothing view.typeName none walk.context record
    (selfHook_assignsNothing hassign hview)).1
  have hlast := (hook_value_of_assignsNothing view.typeName (some walk.context) walk.context record
    (contextHook_assignsNothing hassign hview)).1
  unfold Visit.hooks Visit.andThen
  split
  · exact hself
  · rw [hself]
    exact hlast

theorem hooks_of_assignsNothing (hassign : walk.AssignsNothing) {base : Class} {view : RecordView}
    (hview : walk.view? base = some view) {record : Value}
    (hpass : (Visit.hooks view walk.context record).stop = none) :
    (Visit.hooks view walk.context record).value = record ∧
      (Visit.hooks view walk.context record).replaced = false := by
  obtain ⟨-, -, hvalue, hreplaced⟩ := Visit.andThen_passed hpass
  obtain ⟨hself, hself'⟩ := hook_value_of_assignsNothing view.typeName none walk.context record
    (selfHook_assignsNothing hassign hview)
  obtain ⟨hlast, hlast'⟩ :=
    hook_value_of_assignsNothing view.typeName (some walk.context) walk.context record
      (contextHook_assignsNothing hassign hview)
  rw [hself] at hvalue hreplaced
  exact ⟨hvalue.trans hlast, hreplaced.trans (by rw [hself', hlast']; rfl)⟩

end RuleCheck.Walk
