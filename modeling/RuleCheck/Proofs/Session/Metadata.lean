import RuleCheck.Proofs.Session.Reachable
import Mathlib.Data.List.Forall2

/-! # Notes under other keys

The texts attached to fields matter only under the key that a validator is set to.  Two schemas that
differ in other notes alone give every validator with such a key the same walk, with as many levels to
go.
-/

namespace RuleCheck

/-- Whether two fields are declared alike, up to notes under keys that do not count. -/
structure FieldDecl.Alike (keys : String → Prop) (field field' : FieldDecl) : Prop where
  name : field.name = field'.name
  declared : field.declared = field'.declared
  note : ∀ key, keys key → field.note key = field'.note key

/-- Whether two record types are declared alike, up to notes under keys that do not count. -/
structure RecordDecl.Alike (keys : String → Prop) (decl decl' : RecordDecl) : Prop where
  head : decl.head = decl'.head
  fields : List.Forall₂ (FieldDecl.Alike keys) decl.fields decl'.fields
  selfMethod : decl.selfMethod = decl'.selfMethod
  contextMethod : decl.contextMethod = decl'.contextMethod

/-- Whether two schemas declare alike, up to notes under keys that do not count. -/
structure Schema.Alike (keys : String → Prop) (schema schema' : Schema) : Prop where
  classes : schema.classes = schema'.classes
  records : List.Forall₂ (RecordDecl.Alike keys) schema.records schema'.records

variable {keys : String → Prop} {tagKey : String}

namespace FieldDecl.Alike

variable {field field' : FieldDecl}

theorem hint_eq (h : field.Alike keys field') (classes : String → Option Class) :
    field.hint classes = field'.hint classes := by
  unfold hint
  rw [h.declared]

theorem ofData_eq (h : field.Alike keys field') (hkey : keys tagKey) (declared : Annotation) :
    field.ofData tagKey declared = field'.ofData tagKey declared := by
  unfold ofData
  rw [h.name, h.note tagKey hkey]

theorem unresolved_eq (h : field.Alike keys field') : field.unresolved = field'.unresolved := by
  unfold unresolved
  rw [h.declared]

theorem ofModel_eq (h : field.Alike keys field') (hkey : keys tagKey) (declared : Annotation) :
    field.ofModel tagKey declared = field'.ofModel tagKey declared := by
  unfold ofModel
  rw [h.name, h.note tagKey hkey]

theorem ofNamedTuple_eq (h : field.Alike keys field') (declared : Annotation) :
    field.ofNamedTuple declared = field'.ofNamedTuple declared := by
  unfold ofNamedTuple
  rw [h.name]

theorem bare_eq (h : field.Alike keys field') : field.bare = field'.bare := by
  unfold bare
  rw [h.name]

end FieldDecl.Alike

/-- What is read from the members of a list one by one is read from members like them. -/
theorem map_eq_of_forall₂ {α β : Type} {R : α → α → Prop} {f : α → β}
    (hf : ∀ a a', R a a' → f a = f a') {list list' : List α} (h : List.Forall₂ R list list') :
    list.map f = list'.map f := by
  induction h with
  | nil => rfl
  | cons hfirst _ ih => rw [List.map_cons, List.map_cons, hf _ _ hfirst, ih]

namespace RecordDecl.Alike

variable {decl decl' : RecordDecl}

theorem hints_eq (h : decl.Alike keys decl') (classes : String → Option Class) :
    decl.hints classes = decl'.hints classes := by
  have hmap := map_eq_of_forall₂ (fun _ _ hfield => hfield.hint_eq classes) h.fields
  calc decl.fields.mapM (FieldDecl.hint classes)
      = (decl.fields.map (FieldDecl.hint classes)).mapM id :=
          (List.mapM_map (g := id)).symm
    _ = (decl'.fields.map (FieldDecl.hint classes)).mapM id := by rw [hmap]
    _ = decl'.fields.mapM (FieldDecl.hint classes) := List.mapM_map (g := id)

/-- Fields declared alike, put together with the same annotations, are seen alike. -/
theorem zipWith_eq (h : decl.Alike keys decl') {f : FieldDecl → Annotation → Field}
    (hf : ∀ field field' : FieldDecl, field.Alike keys field' → f field = f field')
    (hints : List Annotation) :
    List.zipWith f decl.fields hints = List.zipWith f decl'.fields hints := by
  have hmap := map_eq_of_forall₂ hf h.fields
  calc List.zipWith f decl.fields hints
      = List.zipWith id (decl.fields.map f) hints := by simp [List.zipWith_map_left]
    _ = List.zipWith id (decl'.fields.map f) hints := by rw [hmap]
    _ = List.zipWith f decl'.fields hints := by simp [List.zipWith_map_left]

/-- The fields as a walk sees them do not depend on notes under other keys. -/
theorem resolved_eq (h : decl.Alike keys decl') (hkey : keys tagKey)
    (classes : String → Option Class) :
    decl.resolved classes tagKey = decl'.resolved classes tagKey := by
  unfold resolved
  rw [h.head, h.hints_eq]
  cases decl'.head.kind with
  | data =>
      cases decl'.hints classes with
      | ok hints => exact h.zipWith_eq (fun _ _ hfield => funext (hfield.ofData_eq hkey)) hints
      | error name =>
          refine map_eq_of_forall₂ (fun _ _ hfield => ?_) h.fields
          rw [hfield.unresolved_eq, hfield.ofData_eq hkey]
  | model =>
      refine map_eq_of_forall₂ (fun _ _ hfield => ?_) h.fields
      rw [hfield.hint_eq, hfield.declared, hfield.ofModel_eq hkey]
  | namedTuple =>
      cases decl'.hints classes with
      | ok hints => exact h.zipWith_eq (fun _ _ hfield => funext hfield.ofNamedTuple_eq) hints
      | error name => exact map_eq_of_forall₂ (fun _ _ hfield => hfield.bare_eq) h.fields
  | plainNamedTuple => exact map_eq_of_forall₂ (fun _ _ hfield => hfield.bare_eq) h.fields

theorem unknownName?_eq (h : decl.Alike keys decl') (classes : String → Option Class) :
    decl.unknownName? classes = decl'.unknownName? classes := by
  unfold unknownName?
  rw [h.head, h.hints_eq]

theorem hook?_eq (h : decl.Alike keys decl') : decl.hook? = decl'.hook? :=
  hook?_congr (map_eq_of_forall₂ (fun _ _ hfield => hfield.name) h.fields) (by rw [h.head])

theorem selfHook_eq (h : decl.Alike keys decl') : decl.selfHook = decl'.selfHook := by
  rw [selfHook, selfHook, h.hook?_eq, h.selfMethod]

theorem contextHook_eq (h : decl.Alike keys decl') : decl.contextHook = decl'.contextHook := by
  rw [contextHook, contextHook, h.hook?_eq, h.contextMethod]

theorem assignedDepth_eq (h : decl.Alike keys decl') :
    decl.assignedDepth = decl'.assignedDepth := by
  rw [assignedDepth, assignedDepth, hooks, hooks, h.selfHook_eq, h.contextHook_eq]

end RecordDecl.Alike

namespace Schema.Alike

variable {schema schema' : Schema}

theorem class?_eq (h : schema.Alike keys schema') : schema.class? = schema'.class? := by
  funext name
  unfold class?
  rw [h.classes]

theorem bind_record?_eq (h : schema.Alike keys schema') {α : Type} {f : RecordDecl → Option α}
    (hf : ∀ decl decl' : RecordDecl, decl.Alike keys decl' → f decl = f decl') (name : String) :
    (schema.record? name).bind f = (schema'.record? name).bind f := by
  have hrecords := h.records
  unfold record?
  generalize schema.records = records at hrecords
  generalize schema'.records = records' at hrecords
  induction hrecords with
  | nil => rfl
  | @cons decl decl' records records' hdecl _ ih =>
      rw [List.find?_cons, List.find?_cons, hdecl.head]
      cases decl'.head.name == name with
      | true => exact hf _ _ hdecl
      | false => exact ih

theorem fields_eq (h : schema.Alike keys schema') (hkey : keys tagKey) (name : String) :
    schema.fields tagKey name = schema'.fields tagKey name := by
  have hfound := h.bind_record?_eq (f := fun decl => some (decl.resolved schema'.class? tagKey))
    (fun _ _ hdecl => congrArg some (hdecl.resolved_eq hkey _)) name
  unfold fields
  rw [h.class?_eq]
  cases hdecl : schema.record? name with
  | none => cases hdecl' : schema'.record? name <;> simp [hdecl, hdecl'] at hfound ⊢
  | some decl => cases hdecl' : schema'.record? name <;> simp_all

theorem view?_eq (h : schema.Alike keys schema') (hkey : keys tagKey) :
    schema.view? tagKey = schema'.view? tagKey := by
  funext base
  cases base with
  | record head =>
      simp only [view?, h.fields_eq hkey,
        h.bind_record?_eq (fun _ _ hdecl => hdecl.selfHook_eq),
        h.bind_record?_eq (fun _ _ hdecl => hdecl.contextHook_eq)]
  | builtIn base => cases base <;> rfl
  | derived name base => rfl
  | enumeration name mixin => rfl

theorem walk_eq (h : schema.Alike keys schema') {validator : Validator}
    (hkey : keys validator.config.tagKey) (context : Value) :
    schema.walk validator context = schema'.walk validator context := by
  unfold walk
  rw [h.view?_eq hkey]

theorem annotationSize_eq (h : schema.Alike keys schema') (hkey : keys tagKey) :
    schema.annotationSize tagKey = schema'.annotationSize tagKey := by
  have hmap := map_eq_of_forall₂ (fun _ _ hdecl => hdecl.resolved_eq hkey schema'.class?) h.records
  unfold annotationSize
  rw [h.class?_eq, List.flatMap_def, hmap, ← List.flatMap_def]

theorem assignedDepth_eq (h : schema.Alike keys schema') :
    schema.assignedDepth = schema'.assignedDepth := by
  unfold assignedDepth
  rw [map_eq_of_forall₂ (fun _ _ hdecl => hdecl.assignedDepth_eq) h.records]

theorem budget_eq (h : schema.Alike keys schema') (hkey : keys tagKey) (declared : Annotation)
    (value : Value) :
    Walk.budget schema tagKey declared value = Walk.budget schema' tagKey declared value := by
  unfold Walk.budget
  rw [h.assignedDepth_eq, h.annotationSize_eq hkey]

end Schema.Alike

end RuleCheck
