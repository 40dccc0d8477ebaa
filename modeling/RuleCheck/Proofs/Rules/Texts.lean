import RuleCheck.Proofs.Schema.OtherFields

/-! # Rule texts one after another

Rule texts that are joined by a comma have the tokens of both, and the tokens of a text, joined by commas, are
a text of the same tokens: the tokens that can come out of a text are those that are not empty and without
commas and outer blanks.  So the tokens of a field are those of its texts, in the order of their source:
markers, and then what is attached to the field.
-/

namespace RuleCheck

namespace Annotation

def hiddenTexts : Annotation → List String
  | .annotated inner _ => inner.ruleTexts
  | _ => []

end Annotation

namespace FieldDecl

/-- The rule texts of a field of which something is declared, in the order of their source. -/
def texts (tagKey : String) (field : FieldDecl) (declared : Annotation) : RecordKind → List String
  | .data => declared.ruleTexts ++ [field.note tagKey]
  | .model => declared.ruleTexts ++ declared.hiddenTexts ++ [field.note tagKey]
  | .namedTuple | .plainNamedTuple => declared.ruleTexts

variable (field : FieldDecl) (declared : Annotation) (tagKey : String)

theorem rules_ofData : (field.ofData tagKey declared).rules = Field.join (field.texts tagKey declared .data) :=
  rfl

theorem rules_ofNamedTuple :
    (field.ofNamedTuple declared).rules = Field.join (field.texts tagKey declared .namedTuple) :=
  rfl

theorem rules_bare : field.bare.rules = Field.join Annotation.absent.ruleTexts := by
  have hnone : Field.join Annotation.absent.ruleTexts = "" := by decide
  rw [hnone]
  rfl

theorem rules_ofModel :
    (field.ofModel tagKey declared).rules = Field.join (field.texts tagKey declared .model) := by
  cases declared <;>
    simp [ofModel, texts, splitMarkers, Annotation.hiddenTexts, Annotation.ruleTexts, Annotation.markerRules]

end FieldDecl

namespace RecordDecl

/-- The annotation that the rules of a field are collected from, none if names of the type are unknown. -/
def source (classes : String → Option Class) (decl : RecordDecl) (field : FieldDecl) : Annotation :=
  match decl.head.kind, decl.hints classes, field.hint classes with
  | .data, .ok _, .ok hint | .model, _, .ok hint | .namedTuple, .ok _, .ok hint => hint
  | .data, _, _ => field.unresolved
  | .model, _, .error _ => field.declared
  | .namedTuple, _, _ | .plainNamedTuple, _, _ => .absent

variable (decl : RecordDecl) (classes : String → Option Class) (tagKey : String)

/-- Every field holds the texts of its own, joined by commas. -/
theorem rules_resolved : (decl.resolved classes tagKey).map Field.rules =
    decl.fields.map fun field =>
      Field.join (field.texts tagKey (decl.source classes field) decl.head.kind) := by
  have hzip {hints : List Annotation} (hhints : decl.hints classes = .ok hints)
      {collect : FieldDecl → Annotation → Field} {rules : FieldDecl → String}
      (hrules : ∀ field hint, field.hint classes = .ok hint → (collect field hint).rules = rules field) :
      (List.zipWith collect decl.fields hints).map Field.rules = decl.fields.map rules := by
    have heach := hints_eq_ok_iff.1 hhints
    clear hhints
    generalize decl.fields = fields at heach
    induction heach with
    | nil => rfl
    | cons hhint _ ih => rw [List.zipWith_cons_cons, List.map_cons, List.map_cons, hrules _ _ hhint, ih]
  unfold resolved source
  cases hkind : decl.head.kind with
  | data =>
      cases hhints : decl.hints classes with
      | ok hints => exact hzip hhints fun field hint hhint => by simp only [hhint, FieldDecl.rules_ofData]
      | error name => simp [FieldDecl.rules_ofData]
  | model =>
      rw [List.map_map]
      refine List.map_congr_left fun field _ => ?_
      rw [Function.comp_apply, FieldDecl.rules_ofModel]
      cases field.hint classes <;> rfl
  | namedTuple =>
      cases hhints : decl.hints classes with
      | ok hints =>
          exact hzip hhints fun field hint hhint => by simp only [hhint, FieldDecl.rules_ofNamedTuple _ _ tagKey]
      | error name =>
          rw [List.map_map]
          exact List.map_congr_left fun field _ => field.rules_bare
  | plainNamedTuple =>
      rw [List.map_map]
      exact List.map_congr_left fun field _ => field.rules_bare

end RecordDecl

namespace RuleSet

/--
Rule texts are read one after another as they are read one by one, and joined by commas the tokens of a text are
read as the same tokens.  The lists of tokens that are read from what they make up are those of tokens that are
not empty and have no commas and no outer blanks.  So a field has the tokens of its texts in the order of their
source.
-/
theorem parse_joins :
    (∀ text other : String, parse (text ++ "," ++ other) = parse text ++ parse other) ∧
      (∀ text : String, parse (String.intercalate "," (parse text).tokens) = parse text) ∧
      (∀ tokens : List String, (parse (String.intercalate "," tokens)).tokens = tokens ↔
        ∀ token ∈ tokens, token ≠ "" ∧ ',' ∉ token.toList ∧ Text.strip token = token) ∧
      (∀ texts : List String,
        (parse (Field.join texts)).tokens = texts.flatMap fun text => (parse text).tokens) ∧
      ∀ (decl : RecordDecl) (classes : String → Option Class) (tagKey : String),
        (decl.resolved classes tagKey).map (fun field => (parse field.rules).tokens) =
          decl.fields.map fun field =>
            (field.texts tagKey (decl.source classes field) decl.head.kind).flatMap fun text =>
              (parse text).tokens := by
  refine ⟨fun text other => ?_, fun text => parse_text (written_parse text),
    fun tokens => ⟨fun h => ?_, fun h => ?_⟩, tokens_parse_join, fun decl classes tagKey => ?_⟩
  · exact congrArg mk (tokens_parse_append text other)
  · have hwritten := written_parse (String.intercalate "," tokens)
    unfold Written at hwritten
    rwa [h] at hwritten
  · have hwritten : RuleSet.Written ⟨tokens⟩ := h
    exact congrArg RuleSet.tokens (parse_text hwritten)
  · have hrules := congrArg (List.map fun rules => (parse rules).tokens) (decl.rules_resolved classes tagKey)
    rw [List.map_map, List.map_map] at hrules
    refine hrules.trans (List.map_congr_left fun field _ => ?_)
    exact tokens_parse_join _

end RuleSet

end RuleCheck
