import RuleCheck.Proofs.Session.Reachable
import RuleCheck.Proofs.Thaw.Categories

/-! # Schemas with thawed types

The fields of a thawed schema are those of the schema, with the types in their annotations thawed.
-/

namespace RuleCheck

variable {p : String → Bool} {P : RecordHead → Prop}

def FieldDecl.thaw (p : String → Bool) (field : FieldDecl) : FieldDecl :=
  { field with declared := field.declared.thaw p }

/-- The field with the types in its annotation thawed, as a walk sees it. -/
def Field.thaw (p : String → Bool) (field : Field) : Field :=
  { field with declared := field.declared.thaw p }

/-- The record type, thawed if its name is among those to be thawed. -/
def RecordDecl.thaw (p : String → Bool) (decl : RecordDecl) : RecordDecl :=
  { decl with head := decl.head.thaw p, fields := decl.fields.map (FieldDecl.thaw p) }

namespace RecordDecl

theorem hook?_thaw (p : String → Bool) (decl : RecordDecl) : (decl.thaw p).hook? = decl.hook? := by
  refine hook?_congr ?_ rfl
  simp only [thaw, List.map_map]
  rfl

theorem selfHook_thaw (p : String → Bool) (decl : RecordDecl) : (decl.thaw p).selfHook = decl.selfHook := by
  unfold selfHook
  rw [decl.hook?_thaw]
  rfl

theorem contextHook_thaw (p : String → Bool) (decl : RecordDecl) :
    (decl.thaw p).contextHook = decl.contextHook := by
  unfold contextHook
  rw [decl.hook?_thaw]
  rfl

end RecordDecl

namespace Schema

def thaw (p : String → Bool) (schema : Schema) : Schema :=
  ⟨schema.classes.map fun (name, base) => (name, base.thaw p),
    schema.records.map (RecordDecl.thaw p)⟩

def Declares (schema : Schema) (head : RecordHead) : Prop :=
  (schema.record? head.name).map RecordDecl.head = some head

/-- Whether names stand for declared record types, and annotations mention no others. -/
structure Closed (schema : Schema) : Prop where
  classes : ∀ entry ∈ schema.classes, ∀ head ∈ entry.2.head?.toList, schema.Declares head
  fields : ∀ decl ∈ schema.records, ∀ field ∈ decl.fields,
    field.declared.Mentions schema.Declares

variable {schema : Schema}

theorem Closed.class? (h : schema.Closed) (name : String) (base : Class)
    (hbase : schema.class? name = some base) : ∀ head ∈ base.head?.toList, schema.Declares head := by
  obtain ⟨before, after, hclasses, -⟩ := List.lookup_eq_some_iff.1 hbase
  exact h.classes (name, base) (by simp [hclasses])

/-- Declared types have different names, and they keep them. -/
theorem separates_declares (p : String → Bool) (schema : Schema) :
    Separates p schema.Declares := by
  intro first second hfirst hsecond hthaw
  have hname : (first.thaw p).name = (second.thaw p).name := congrArg RecordHead.name hthaw
  change first.name = second.name at hname
  unfold Declares at hfirst hsecond
  rw [hname, hsecond] at hfirst
  exact (Option.some.inj hfirst).symm

theorem class?_thaw (p : String → Bool) (schema : Schema) (name : String) :
    (schema.thaw p).class? name = (schema.class? name).map (Class.thaw p) := by
  unfold class? thaw
  generalize schema.classes = classes
  induction classes with
  | nil => rfl
  | cons entry classes ih =>
      obtain ⟨own, base⟩ := entry
      simp only [List.map_cons, List.lookup_cons]
      cases hown : name == own with
      | true => rfl
      | false => exact ih

theorem record?_thaw (p : String → Bool) (schema : Schema) (name : String) :
    (schema.thaw p).record? name = (schema.record? name).map (RecordDecl.thaw p) := by
  unfold record? thaw
  rw [List.find?_map]
  rfl

end Schema

namespace FieldDecl

variable {classes classes' : String → Option Class}

theorem hint_thaw (hsep : Separates p P)
    (hclasses : ∀ name, classes' name = (classes name).map (Class.thaw p))
    (hmentions : ∀ name base, classes name = some base → ∀ head ∈ base.head?.toList, P head)
    {field : FieldDecl} (h : field.declared.Mentions P) :
    (field.thaw p).hint classes' = (field.hint classes).map (fun a => a.thaw p) ∧
      ∀ a, field.hint classes = .ok a → a.Mentions P := by
  obtain ⟨name, declared, notes⟩ := field
  have hnames := Annotation.resolveNames_thaw hsep hclasses hmentions declared h
  by_cases habsent : declared = .absent
  · subst habsent
    refine ⟨rfl, ?_⟩
    rintro a ⟨⟩ head hhead
    simp [Class.head?, Annotation.null, Annotation.heads] at hhead
  · have hhint : hint classes ⟨name, declared, notes⟩ = declared.resolveNames classes := by
      cases declared <;> first | rfl | exact absurd rfl habsent
    have hhint' : hint classes' (thaw p ⟨name, declared, notes⟩) =
        (declared.thaw p).resolveNames classes' := by
      cases declared <;> first | rfl | exact absurd rfl habsent
    rw [hhint, hhint']
    exact hnames

theorem ofData_thaw (tagKey : String) (field : FieldDecl) (declared : Annotation) :
    (field.thaw p).ofData tagKey (declared.thaw p) = (field.ofData tagKey declared).thaw p := by
  simp [ofData, Field.thaw, Annotation.ruleTexts_thaw, thaw, note]

theorem unresolved_thaw (field : FieldDecl) :
    (field.thaw p).unresolved = field.unresolved.thaw p := by
  obtain ⟨name, declared, notes⟩ := field
  cases declared <;> rfl

theorem mentions_unresolved {field : FieldDecl} (h : field.declared.Mentions P) :
    field.unresolved.Mentions P := by
  obtain ⟨name, declared, notes⟩ := field
  cases declared <;> exact h

theorem splitMarkers_thaw (a : Annotation) :
    splitMarkers (a.thaw p) = ((splitMarkers a).1, (splitMarkers a).2.thaw p) := by
  cases a <;> rfl

theorem ofModel_thaw (tagKey : String) (field : FieldDecl) (declared : Annotation) :
    (field.thaw p).ofModel tagKey (declared.thaw p) = (field.ofModel tagKey declared).thaw p := by
  unfold ofModel
  rw [splitMarkers_thaw]
  simp only [Field.thaw, Annotation.ruleTexts_thaw, Annotation.annotate_thaw]
  split <;> rfl

theorem ofNamedTuple_thaw (field : FieldDecl) (declared : Annotation) :
    (field.thaw p).ofNamedTuple (declared.thaw p) = (field.ofNamedTuple declared).thaw p := by
  simp [ofNamedTuple, Field.thaw, Annotation.ruleTexts_thaw, thaw]

theorem mentions_ofModel (tagKey : String) (field : FieldDecl) {declared : Annotation}
    (h : declared.Mentions P) : (field.ofModel tagKey declared).declared.Mentions P := by
  have hinner : (splitMarkers declared).2.Mentions P := by
    cases declared <;> exact h
  unfold ofModel
  simp only
  split
  · exact hinner
  · exact Annotation.mentions_annotate hinner _

end FieldDecl

namespace RecordDecl

variable {classes classes' : String → Option Class}

theorem hints_thaw (hsep : Separates p P)
    (hclasses : ∀ name, classes' name = (classes name).map (Class.thaw p))
    (hmentions : ∀ name base, classes name = some base → ∀ head ∈ base.head?.toList, P head)
    {decl : RecordDecl} (h : ∀ field ∈ decl.fields, field.declared.Mentions P) :
    (decl.thaw p).hints classes' = (decl.hints classes).map (List.map fun a => a.thaw p) ∧
      ∀ found, decl.hints classes = .ok found → ∀ a ∈ found, a.Mentions P := by
  unfold hints thaw
  simp only
  generalize decl.fields = fields at h
  induction fields with
  | nil =>
      refine ⟨rfl, ?_⟩
      rintro found ⟨⟩
      simp
  | cons field fields ih =>
      obtain ⟨hfirst, hfirst'⟩ := FieldDecl.hint_thaw hsep hclasses hmentions (h field (by simp))
      obtain ⟨hrest, hrest'⟩ := ih fun other hother => h other (by simp [hother])
      rw [List.map_cons, List.mapM_cons, List.mapM_cons, hfirst, hrest]
      cases hown : field.hint classes with
      | error name => exact ⟨rfl, by simp [bind, Except.bind]⟩
      | ok a =>
          cases hmore : fields.mapM (FieldDecl.hint classes) with
          | error name => exact ⟨rfl, by simp [bind, Except.bind]⟩
          | ok more =>
              refine ⟨rfl, ?_⟩
              rintro found ⟨⟩ b hb
              rcases List.mem_cons.1 hb with rfl | hb
              · exact hfirst' _ hown
              · exact hrest' more hmore b hb

theorem zipWith_thaw {field : FieldDecl → Annotation → Field}
    (h : ∀ decl declared, field (decl.thaw p) (declared.thaw p) = (field decl declared).thaw p)
    (fields : List FieldDecl) (hints : List Annotation) :
    List.zipWith field (fields.map (FieldDecl.thaw p)) (hints.map fun a => a.thaw p) =
      (List.zipWith field fields hints).map (Field.thaw p) := by
  rw [List.zipWith_map, List.map_zipWith]
  congr 1
  funext decl declared
  exact h decl declared

theorem mentions_zipWith {field : FieldDecl → Annotation → Field}
    (h : ∀ decl declared, (field decl declared).declared = declared) {fields : List FieldDecl}
    {hints : List Annotation} (hhints : ∀ a ∈ hints, a.Mentions P) :
    ∀ f ∈ List.zipWith field fields hints, f.declared.Mentions P := by
  induction fields generalizing hints with
  | nil => simp
  | cons decl fields ih =>
      cases hints with
      | nil => simp
      | cons a hints =>
          intro f hf
          rcases List.mem_cons.1 hf with rfl | hf
          · rw [h]
            exact hhints a (by simp)
          · exact ih (fun b hb => hhints b (by simp [hb])) f hf

theorem mentions_resolved (hsep : Separates p P)
    (hclasses : ∀ name, classes' name = (classes name).map (Class.thaw p))
    (hmentions : ∀ name base, classes name = some base → ∀ head ∈ base.head?.toList, P head)
    {decl : RecordDecl} (h : ∀ field ∈ decl.fields, field.declared.Mentions P) (tagKey : String) :
    ∀ field ∈ decl.resolved classes tagKey, field.declared.Mentions P := by
  have hhints := (hints_thaw hsep hclasses hmentions h).2
  have hbare : ∀ field ∈ decl.fields.map FieldDecl.bare, field.declared.Mentions P := by
    intro field hfield
    obtain ⟨own, -, rfl⟩ := List.mem_map.1 hfield
    exact Annotation.mentions_absent
  unfold resolved
  split
  · split
    · rename_i hints hfound
      exact mentions_zipWith (fun _ _ => rfl) (hhints hints hfound)
    · intro field hfield
      obtain ⟨own, hown, rfl⟩ := List.mem_map.1 hfield
      exact FieldDecl.mentions_unresolved (h own hown)
  · intro field hfield
    obtain ⟨own, hown, rfl⟩ := List.mem_map.1 hfield
    refine FieldDecl.mentions_ofModel tagKey own ?_
    split
    · rename_i declared hdeclared
      exact (FieldDecl.hint_thaw hsep hclasses hmentions (h own hown)).2 declared hdeclared
    · exact h own hown
  · split
    · rename_i hints hfound
      exact mentions_zipWith (fun _ _ => rfl) (hhints hints hfound)
    · exact hbare
  · exact hbare

theorem bare_thaw (fields : List FieldDecl) :
    (fields.map (FieldDecl.thaw p)).map FieldDecl.bare =
      (fields.map FieldDecl.bare).map (Field.thaw p) := by
  rw [List.map_map, List.map_map]
  rfl

theorem resolved_thaw (hsep : Separates p P)
    (hclasses : ∀ name, classes' name = (classes name).map (Class.thaw p))
    (hmentions : ∀ name base, classes name = some base → ∀ head ∈ base.head?.toList, P head)
    {decl : RecordDecl} (h : ∀ field ∈ decl.fields, field.declared.Mentions P) (tagKey : String) :
    (decl.thaw p).resolved classes' tagKey = (decl.resolved classes tagKey).map (Field.thaw p) := by
  have hhints := (hints_thaw hsep hclasses hmentions h).1
  have hfields : (decl.thaw p).fields = decl.fields.map (FieldDecl.thaw p) := rfl
  have hkind : (decl.thaw p).head.kind = decl.head.kind := rfl
  unfold resolved
  rw [hkind, hhints, hfields]
  cases decl.head.kind with
  | data =>
      cases decl.hints classes with
      | ok hints => exact zipWith_thaw (FieldDecl.ofData_thaw tagKey) decl.fields hints
      | error name =>
          simp only [Except.map, List.map_map]
          refine List.map_congr_left fun field _ => ?_
          simp only [Function.comp_apply]
          rw [FieldDecl.unresolved_thaw, FieldDecl.ofData_thaw]
  | model =>
      simp only [List.map_map]
      refine List.map_congr_left fun field hfield => ?_
      simp only [Function.comp_apply]
      rw [(FieldDecl.hint_thaw hsep hclasses hmentions (h field hfield)).1]
      cases field.hint classes with
      | ok declared => exact FieldDecl.ofModel_thaw tagKey field declared
      | error name => exact FieldDecl.ofModel_thaw tagKey field field.declared
  | namedTuple =>
      cases decl.hints classes with
      | ok hints => exact zipWith_thaw FieldDecl.ofNamedTuple_thaw decl.fields hints
      | error name => exact bare_thaw decl.fields
  | plainNamedTuple => exact bare_thaw decl.fields

end RecordDecl

namespace Schema

variable {schema : Schema}

theorem fields_thaw (hclosed : schema.Closed) (p : String → Bool) (tagKey name : String) :
    (schema.thaw p).fields tagKey name = (schema.fields tagKey name).map (Field.thaw p) ∧
      ∀ field ∈ schema.fields tagKey name, field.declared.Mentions schema.Declares := by
  unfold fields
  rw [record?_thaw]
  cases hdecl : schema.record? name with
  | none => simp
  | some decl =>
      have hmem := hclosed.fields decl (List.mem_of_find?_eq_some hdecl)
      have hsep := separates_declares p schema
      have hclasses := class?_thaw p schema
      exact ⟨RecordDecl.resolved_thaw hsep hclasses hclosed.class? hmem tagKey,
        RecordDecl.mentions_resolved hsep hclasses hclosed.class? hmem tagKey⟩

theorem annotationSize_thaw (hclosed : schema.Closed) (p : String → Bool) (tagKey : String) :
    (schema.thaw p).annotationSize tagKey = schema.annotationSize tagKey := by
  have hresolved : ∀ decl ∈ schema.records,
      ((decl.thaw p).resolved (schema.thaw p).class? tagKey).map (fun field => field.declared.size) =
        (decl.resolved schema.class? tagKey).map fun field => field.declared.size := by
    intro decl hdecl
    rw [RecordDecl.resolved_thaw (separates_declares p schema) (class?_thaw p schema)
      hclosed.class? (hclosed.fields decl hdecl), List.map_map]
    refine List.map_congr_left fun field _ => ?_
    exact Annotation.size_thaw field.declared
  have hrecords : (schema.thaw p).records = schema.records.map (RecordDecl.thaw p) := rfl
  unfold annotationSize
  rw [hrecords]
  congr 1
  simp only [List.map_cons, List.map_flatMap, List.flatMap_map]
  congr 1
  rw [List.flatMap_def, List.flatMap_def]
  congr 1
  exact List.map_congr_left hresolved

theorem assignedDepth_thaw (schema : Schema) (p : String → Bool) :
    (schema.thaw p).assignedDepth = schema.assignedDepth := by
  unfold assignedDepth thaw
  rw [List.map_map]
  congr 1
  refine List.map_congr_left fun decl _ => ?_
  rw [Function.comp_apply, RecordDecl.assignedDepth, RecordDecl.hooks, decl.selfHook_thaw, decl.contextHook_thaw]
  rfl

end Schema

end RuleCheck
