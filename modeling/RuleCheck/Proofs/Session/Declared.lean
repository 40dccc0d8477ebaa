import RuleCheck.Proofs.Session.Reachable
import RuleCheck.Proofs.Walk.Levels

/-! # What a walk finds declared

The walk of a standard validator over a schema: the evaluators it has, and the fields and hooks of the
record types that it knows.
-/

namespace RuleCheck

def ScalarKind.declared : ScalarKind → Annotation
  | text => .bare (.builtIn .text)
  | int => .bare (.builtIn .int)
  | uint => .annotated (.bare (.builtIn .int)) [.unsigned]
  | float => .bare (.builtIn .float)
  | bool => .bare (.builtIn .bool)
  | duration => .bare (.builtIn .duration)
  | timestamp => .bare (.builtIn .moment)

namespace Schema

/-- Whether no hook of a record type assigns a field. -/
def AssignsNothing (schema : Schema) : Prop :=
  ∀ decl ∈ schema.records, ∀ hook ∈ decl.hooks, hook.AssignsNothing

/-- Whether no hook of a record type raises a report that has a path already. -/
def RaisesNoPaths (schema : Schema) : Prop :=
  ∀ decl ∈ schema.records, ∀ hook ∈ decl.hooks, hook.RaisesNoPaths

/-- Whether the declared fields of every record type have different names. -/
def DistinctNames (schema : Schema) : Prop :=
  ∀ decl ∈ schema.records, (decl.fields.map FieldDecl.name).Nodup

end Schema

namespace RecordDecl

theorem hook_or_field {decl : RecordDecl} {hook : Hook} (h : hook ∈ decl.hooks) :
    hook ∈ decl.methods ∨ ∃ name found, hook = .ofField name found := by
  have hfound (name : String) (method : Option Hook) (hhook : decl.hook? name method = some hook) :
      method = some hook ∨ ∃ name found, hook = .ofField name found := by
    unfold hook? at hhook
    split at hhook
    · cases hhook
      exact .inr ⟨_, _, rfl⟩
    · exact .inl hhook
  simp only [hooks, selfHook, contextHook, List.mem_append, Option.mem_toList] at h
  simp only [methods, List.mem_append, Option.mem_toList]
  rcases h with hself | hcontext
  · exact (hfound _ _ hself).imp_left .inl
  · exact (hfound _ _ hcontext).imp_left .inr

theorem hints_length {classes : String → Option Class} {decl : RecordDecl} {hints : List Annotation}
    (h : decl.hints classes = .ok hints) : hints.length = decl.fields.length := by
  unfold RecordDecl.hints at h
  generalize decl.fields = fields at h
  induction fields generalizing hints with
  | nil =>
      cases h
      rfl
  | cons field fields ih =>
      simp only [List.mapM_cons, bind, Except.bind] at h
      split at h
      · cases h
      · split at h
        · cases h
        · rename_i rest hrest
          cases h
          simp [ih hrest]

theorem map_name_zipWith {field : FieldDecl → Annotation → Field}
    (hname : ∀ decl declared, (field decl declared).name = decl.name) {fields : List FieldDecl}
    {hints : List Annotation} (hlength : hints.length = fields.length) :
    (List.zipWith field fields hints).map Field.name = fields.map FieldDecl.name := by
  induction fields generalizing hints with
  | nil => rfl
  | cons decl fields ih =>
      cases hints with
      | nil => simp at hlength
      | cons hint hints =>
          have htail := ih (Nat.succ.inj hlength)
          simp [hname, htail]

theorem names_resolved (classes : String → Option Class) (tagKey : String) (decl : RecordDecl) :
    (decl.resolved classes tagKey).map Field.name = decl.fields.map FieldDecl.name := by
  unfold resolved
  split
  · split
    · rename_i hints hhints
      exact map_name_zipWith (fun _ _ => rfl) (hints_length hhints)
    · rw [List.map_map]
      rfl
  · rw [List.map_map]
    rfl
  · split
    · rename_i hints hhints
      exact map_name_zipWith (fun _ _ => rfl) (hints_length hhints)
    · rw [List.map_map]
      rfl
  · rw [List.map_map]
    rfl

end RecordDecl

namespace Schema

open Annotation (size)

private theorem foldl_max_le (list : List Nat) (start : Nat) : start ≤ list.foldl max start := by
  induction list generalizing start with
  | nil => exact Nat.le_refl _
  | cons n list ih =>
      have := ih (max start n)
      simp only [List.foldl_cons]
      omega

private theorem le_foldl_max {list : List Nat} {n : Nat} (h : n ∈ list) (start : Nat) :
    n ≤ list.foldl max start := by
  induction list generalizing start with
  | nil => simp at h
  | cons m list ih =>
      simp only [List.foldl_cons]
      rcases List.mem_cons.1 h with rfl | h
      · have := foldl_max_le list (max start n)
        omega
      · exact ih h _

theorem le_budget {schema : Schema} (tagKey : String) (place : Place) {levels : Nat}
    (h : levels ≤ (place.value.depth - 1) * (max place.declared.size (schema.annotationSize tagKey) + 1) +
      place.declared.size + 2) :
    levels ≤ Walk.budget schema tagKey place.declared place.value := by
  have hsize := Nat.le_max_left place.declared.size (schema.annotationSize tagKey)
  have hpos := place.value.depth_pos
  unfold Walk.budget
  generalize max place.declared.size (schema.annotationSize tagKey) = parts at *
  have hsplit : place.value.depth * (parts + 1) =
      (place.value.depth - 1) * (parts + 1) + (parts + 1) := by
    obtain ⟨n, hn⟩ : ∃ n, place.value.depth = n + 1 := ⟨place.value.depth - 1, by omega⟩
    rw [hn, Nat.add_sub_cancel, Nat.add_mul, Nat.one_mul]
  have hmore : place.value.depth * (parts + 1) ≤
      (place.value.depth + Walk.assignRounds * schema.assignedDepth) * (parts + 1) :=
    Nat.mul_le_mul_right _ (Nat.le_add_right _ _)
  omega

variable (schema : Schema) (config : Config) (context : Value)

theorem walk_registry : (schema.walk ⟨config, .standard⟩ context).evaluator? = Registry.standard.get? :=
  rfl

theorem walk_views (base : Class) (h : base.isRecord = true) :
    ∃ view, (schema.walk ⟨config, .standard⟩ context).view? base = some view := by
  cases base with
  | record head => exact ⟨_, rfl⟩
  | builtIn base => cases base <;> first | exact ⟨_, rfl⟩ | cases h
  | derived name base => cases h
  | enumeration name mixin => cases h

theorem category_null_declared (kind : ScalarKind) :
    (Value.null.resolve kind.declared).category = kind.category := by
  cases kind <;> rfl

theorem visit_null_declared (kind : ScalarKind) (writable : Bool) (rules : RuleSet) :
    schema.visit ⟨config, .standard⟩ context writable kind.declared .null rules =
      kind.visit writable .null rules := by
  unfold visit Walk.budget
  cases kind <;> rfl

variable {schema}

theorem fields_of_view {tagKey : String} {base : Class} {view : RecordView}
    (hview : schema.view? tagKey base = some view) :
    (∃ name, view.fields = schema.fields tagKey name) ∨ view.fields = [boxField] := by
  cases base with
  | record head =>
      cases hview
      exact .inl ⟨head.name, rfl⟩
  | builtIn base =>
      cases base <;> cases hview
      exact .inr rfl
  | derived name base => cases hview
  | enumeration name mixin => cases hview

theorem hooks_of_view {tagKey : String} {base : Class} {view : RecordView}
    (hview : schema.view? tagKey base = some view) :
    (view.selfHook = none ∧ view.contextHook = none) ∨
      ∃ decl ∈ schema.records, view.selfHook = decl.selfHook ∧ view.contextHook = decl.contextHook := by
  cases base with
  | record head =>
      cases hview
      cases hdecl : schema.record? head.name with
      | none => exact .inl ⟨rfl, rfl⟩
      | some decl => exact .inr ⟨decl, List.mem_of_find?_eq_some hdecl, rfl, rfl⟩
  | builtIn base =>
      cases base <;> cases hview
      exact .inl ⟨rfl, rfl⟩
  | derived name base => cases hview
  | enumeration name mixin => cases hview

theorem fieldsOf?_eq (tagKey : String) (base : Class) :
    schema.fieldsOf? tagKey base = (schema.view? tagKey base).map RecordView.fields := by
  cases base with
  | builtIn base => cases base <;> rfl
  | record | derived | enumeration => rfl

theorem mem_fields {tagKey name : String} {field : Field} (h : field ∈ schema.fields tagKey name) :
    ∃ decl ∈ schema.records, schema.record? name = some decl ∧
      field ∈ decl.resolved schema.class? tagKey := by
  unfold fields at h
  split at h
  · rename_i decl hdecl
    exact ⟨decl, List.mem_of_find?_eq_some hdecl, hdecl, h⟩
  · simp at h

theorem walk_fieldsBounded {parts : Nat} (hparts : schema.annotationSize config.tagKey ≤ parts) :
    (schema.walk ⟨config, .standard⟩ context).FieldsBounded parts := by
  intro base view hview field hfield
  refine Nat.le_trans ?_ hparts
  refine le_foldl_max (List.mem_map_of_mem (f := fun field : Field => field.declared.size) ?_) 0
  rcases fields_of_view hview with ⟨name, hfields⟩ | hfields <;> rw [hfields] at hfield
  · obtain ⟨decl, hdecl, -, hfield⟩ := mem_fields hfield
    exact List.mem_cons.2 (.inr (List.mem_flatMap.2 ⟨decl, hdecl, hfield⟩))
  · exact List.mem_cons.2 (.inl (List.mem_singleton.1 hfield))

theorem mem_hooks_of_view {tagKey : String} {base : Class} {view : RecordView}
    (hview : schema.view? tagKey base = some view) {hook : Hook} (hhook : hook ∈ view.hooks) :
    ∃ decl ∈ schema.records, hook ∈ decl.hooks := by
  rcases hooks_of_view hview with ⟨hself, hcontext⟩ | ⟨decl, hdecl, hself, hcontext⟩
  · simp [RecordView.hooks, hself, hcontext] at hhook
  · rw [RecordView.hooks, hself, hcontext] at hhook
    exact ⟨decl, hdecl, hhook⟩

theorem hookless_of_hasHooks (h : schema.hasHooks = false) {tagKey : String} {base : Class}
    {view : RecordView} (hview : schema.view? tagKey base = some view) :
    view.selfHook = none ∧ view.contextHook = none := by
  rcases hooks_of_view hview with hnone | ⟨decl, hdecl, hself, hcontext⟩
  · exact hnone
  · have hnone := List.any_eq_false.1 h decl hdecl
    rw [hself, hcontext]
    simpa using hnone

/-- What holds of all methods holds of all hooks, if it holds of fields in their place. -/
theorem forall_hooks_of_methods {P : Hook → Prop} (hfield : ∀ name found, P (.ofField name found))
    (h : ∀ decl ∈ schema.records, ∀ method ∈ decl.methods, P method) :
    ∀ decl ∈ schema.records, ∀ hook ∈ decl.hooks, P hook := by
  intro decl hdecl hook hhook
  rcases RecordDecl.hook_or_field hhook with hmethod | ⟨name, found, rfl⟩
  · exact h decl hdecl hook hmethod
  · exact hfield name found

theorem assignsNothing_of_methods
    (h : ∀ decl ∈ schema.records, ∀ method ∈ decl.methods, method.AssignsNothing) :
    schema.AssignsNothing :=
  forall_hooks_of_methods (fun _ _ _ _ => rfl) h

theorem raisesNoPaths_of_methods
    (h : ∀ decl ∈ schema.records, ∀ method ∈ decl.methods, method.RaisesNoPaths) :
    schema.RaisesNoPaths :=
  forall_hooks_of_methods Hook.raisesNoPaths_ofField h

theorem assignsNothing_of_hasHooks (h : schema.hasHooks = false) : schema.AssignsNothing := by
  intro decl hdecl hook hhook
  have hnone := List.any_eq_false.1 h decl hdecl
  simp only [Bool.or_eq_true, not_or, Bool.not_eq_true, Option.isSome_eq_false_iff, Option.isNone_iff_eq_none]
    at hnone
  simp [RecordDecl.hooks, hnone.1, hnone.2] at hhook

theorem walk_assignsNothing (h : schema.AssignsNothing) :
    (schema.walk ⟨config, .standard⟩ context).AssignsNothing := by
  intro base view hview hook hhook
  obtain ⟨decl, hdecl, hdeclared⟩ := mem_hooks_of_view hview hhook
  exact h decl hdecl hook hdeclared

theorem nodup_fields (h : schema.DistinctNames) (tagKey name : String) :
    ((schema.fields tagKey name).map Field.name).Nodup := by
  unfold fields
  split
  · rename_i decl hdecl
    rw [RecordDecl.names_resolved]
    exact h decl (List.mem_of_find?_eq_some hdecl)
  · exact List.nodup_nil

theorem walk_distinctFields (h : schema.DistinctNames) :
    (schema.walk ⟨config, .standard⟩ context).DistinctFields := by
  intro base view hview
  rcases fields_of_view hview with ⟨name, hfields⟩ | hfields <;> rw [hfields]
  · exact nodup_fields h config.tagKey name
  · simp

end Schema

end RuleCheck
