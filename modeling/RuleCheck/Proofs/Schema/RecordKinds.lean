import RuleCheck.Schema
import RuleCheck.Proofs.Text.Joining
import Mathlib.Data.List.Forall2

/-! # The rules that the kinds of record types collect

The same fields can be declared of a data record, of a model and of a named tuple.  A data record and a named
tuple take the rules of the outermost markers of an annotation, or those of the members of a union; a model
goes on below its outermost markers.  So all of them collect the same tokens, field by field, up to those
that stand below the outermost markers of an annotation: a model has them, and the others lose them.
-/

namespace RuleCheck

namespace Text

variable {separator : Char}

theorem cut_append_cons (s rest : List Char) :
    cut separator (s ++ separator :: rest) = cut separator s ++ cut separator rest := by
  induction s with
  | nil => simp [cut]
  | cons c s ih =>
      by_cases hc : c = separator
      · simp [cut, hc, ih]
      · obtain ⟨first, pieces, hcut⟩ := List.exists_cons_of_ne_nil (cut_ne_nil separator s)
        simp [cut, hc, ih, hcut]

end Text

def Field.tokens (field : Field) : List String :=
  (RuleSet.parse field.rules).tokens

def RuleSet.tokensOf (texts : List String) : List String :=
  texts.flatMap fun text => (parse text).tokens

namespace RuleSet

theorem tokensOf_append (texts others : List String) :
    tokensOf (texts ++ others) = tokensOf texts ++ tokensOf others :=
  List.flatMap_append

theorem tokensOf_singleton (text : String) : tokensOf [text] = (parse text).tokens :=
  List.flatMap_singleton ..

theorem tokens_parse_append (text other : String) :
    (parse (text ++ "," ++ other)).tokens = (parse text).tokens ++ (parse other).tokens := by
  have hcut : Text.cutString ',' (text ++ "," ++ other) =
      Text.cutString ',' text ++ Text.cutString ',' other := by
    unfold Text.cutString
    rw [← List.map_append, ← Text.cut_append_cons]
    simp
  simp only [parse, hcut, List.map_append, List.filter_append]

theorem tokens_parse_join (texts : List String) :
    (parse (Field.join texts)).tokens = tokensOf texts := by
  unfold Field.join
  induction texts with
  | nil => decide
  | cons text texts ih =>
      by_cases htext : text = ""
      · have hempty : (parse "").tokens = [] := by decide
        simpa [tokensOf, htext, hempty] using ih
      · cases hrest : texts.filter fun text => text != "" with
        | nil =>
            have hnone : tokensOf texts = [] := by
              rw [← ih, hrest]
              decide
            rw [List.filter_cons_of_pos (by simpa using htext), hrest, String.intercalate_singleton]
            show _ = (parse text).tokens ++ tokensOf texts
            rw [hnone, List.append_nil]
        | cons second rest =>
            rw [hrest] at ih
            rw [List.filter_cons_of_pos (by simpa using htext), hrest, String.intercalate_cons_cons,
              tokens_parse_append, ih]
            rfl

end RuleSet

namespace Annotation

def tokens (a : Annotation) : List String :=
  RuleSet.tokensOf a.ruleTexts

/-- The tokens of rules below the outermost markers of an annotation. -/
def hiddenTokens : Annotation → List String
  | .annotated inner _ => inner.tokens
  | _ => []

mutual

def names : Annotation → List String
  | .applied _ arguments => namesList arguments
  | .tupleOf item => names item
  | .union members => namesList members
  | .annotated inner _ => names inner
  | .forward name => [name]
  | _ => []

def namesList : List Annotation → List String
  | [] => []
  | a :: list => names a ++ namesList list

end

mutual

theorem exists_resolveNames {classes : String → Option Class} : (a : Annotation) →
    (∀ name ∈ a.names, (classes name).isSome) → ∃ resolved, a.resolveNames classes = .ok resolved
  | .absent, _ | .any, _ | .bare _, _ | .newType _ _, _ | .variable _, _ | .literal _, _ => ⟨_, rfl⟩
  | .applied base arguments, h => by
      obtain ⟨list, hlist⟩ := exists_resolveNamesList arguments h
      exact ⟨.applied base list, by simp [resolveNames, hlist, bind, Except.bind, pure, Except.pure]⟩
  | .tupleOf item, h => by
      obtain ⟨resolved, hitem⟩ := exists_resolveNames item h
      exact ⟨.tupleOf resolved, by simp [resolveNames, hitem, bind, Except.bind, pure, Except.pure]⟩
  | .union members, h => by
      obtain ⟨list, hlist⟩ := exists_resolveNamesList members h
      exact ⟨unite list, by simp [resolveNames, hlist, bind, Except.bind, pure, Except.pure]⟩
  | .annotated inner markers, h => by
      obtain ⟨resolved, hinner⟩ := exists_resolveNames inner h
      exact ⟨annotate resolved markers,
        by simp [resolveNames, hinner, bind, Except.bind, pure, Except.pure]⟩
  | .forward name, h => by
      obtain ⟨base, hbase⟩ := Option.isSome_iff_exists.1 (h name (by simp [names]))
      exact ⟨.bare base, by simp [resolveNames, hbase]⟩

theorem exists_resolveNamesList {classes : String → Option Class} : (list : List Annotation) →
    (∀ name ∈ namesList list, (classes name).isSome) →
      ∃ resolved, resolveNamesList classes list = .ok resolved
  | [], _ => ⟨[], rfl⟩
  | a :: list, h => by
      simp only [namesList, List.mem_append] at h
      obtain ⟨first, hfirst⟩ := exists_resolveNames a fun name hname => h name (.inl hname)
      obtain ⟨rest, hrest⟩ := exists_resolveNamesList list fun name hname => h name (.inr hname)
      exact ⟨first :: rest,
        by simp [resolveNamesList, hfirst, hrest, bind, Except.bind, pure, Except.pure]⟩

end

end Annotation

namespace FieldDecl

variable (field : FieldDecl) (declared : Annotation) (tagKey : String)

def noteTokens : List String :=
  (RuleSet.parse (field.note tagKey)).tokens

theorem tokens_ofData :
    (field.ofData tagKey declared).tokens = declared.tokens ++ field.noteTokens tagKey := by
  simp only [Field.tokens, ofData, RuleSet.tokens_parse_join, RuleSet.tokensOf_append,
    RuleSet.tokensOf_singleton, Annotation.tokens, noteTokens]

theorem tokens_ofNamedTuple : (field.ofNamedTuple declared).tokens = declared.tokens := by
  simp only [Field.tokens, ofNamedTuple, RuleSet.tokens_parse_join, Annotation.tokens]

/-- A model has what a data record has, and what stands below the outermost markers. -/
theorem tokens_ofModel :
    (field.ofModel tagKey declared).tokens =
      declared.tokens ++ declared.hiddenTokens ++ field.noteTokens tagKey := by
  simp only [Field.tokens, ofModel, RuleSet.tokens_parse_join, RuleSet.tokensOf_append,
    RuleSet.tokensOf_singleton, noteTokens]
  cases declared <;>
    simp [splitMarkers, Annotation.tokens, Annotation.hiddenTokens, Annotation.ruleTexts,
      Annotation.markerRules, RuleSet.tokensOf]

theorem exists_hint {classes : String → Option Class}
    (h : ∀ name ∈ field.declared.names, (classes name).isSome) :
    ∃ hint, field.hint classes = .ok hint := by
  unfold hint
  split
  · exact ⟨_, rfl⟩
  · exact Annotation.exists_resolveNames _ h

end FieldDecl

namespace RecordDecl

def ofKind (kind : RecordKind) (decl : RecordDecl) : RecordDecl :=
  { decl with head := { decl.head with kind := kind } }

def tokensAs (classes : String → Option Class) (tagKey : String) (decl : RecordDecl)
    (kind : RecordKind) : List (List String) :=
  ((decl.ofKind kind).resolved classes tagKey).map Field.tokens

variable {classes : String → Option Class} {tagKey : String} {decl : RecordDecl}

theorem hints_ofKind (kind : RecordKind) : (decl.ofKind kind).hints classes = decl.hints classes := rfl

/-- If every field has an annotation, all of them are found together. -/
theorem hints_of_forall (h : ∀ field ∈ decl.fields, ∃ hint, FieldDecl.hint classes field = .ok hint) :
    ∃ hints, decl.hints classes = .ok hints ∧
      List.Forall₂ (fun field hint => FieldDecl.hint classes field = .ok hint) decl.fields hints := by
  unfold hints
  generalize decl.fields = fields at h
  induction fields with
  | nil => exact ⟨[], rfl, .nil⟩
  | cons field fields ih =>
      obtain ⟨hint, hhint⟩ := h field List.mem_cons_self
      obtain ⟨hints, hhints, heach⟩ := ih fun other hother => h other (List.mem_cons_of_mem _ hother)
      refine ⟨hint :: hints, ?_, .cons hhint heach⟩
      simp [List.mapM_cons, hhint, hhints, bind, Except.bind, pure, Except.pure]

/-- If all names are known, every field has its annotation. -/
theorem exists_hints
    (h : ∀ field ∈ decl.fields, ∀ name ∈ field.declared.names, (classes name).isSome) :
    ∃ hints, decl.hints classes = .ok hints ∧
      List.Forall₂ (fun field hint => FieldDecl.hint classes field = .ok hint) decl.fields hints :=
  hints_of_forall fun field hfield => field.exists_hint (h field hfield)

section Hints

variable {hints : List Annotation} (hhints : decl.hints classes = .ok hints)

include hhints

theorem tokensAs_data :
    decl.tokensAs classes tagKey .data = List.zipWith
      (fun field hint => Annotation.tokens hint ++ FieldDecl.noteTokens field tagKey)
      decl.fields hints := by
  have hresolved : (decl.ofKind .data).resolved classes tagKey =
      List.zipWith (FieldDecl.ofData tagKey) decl.fields hints := by
    unfold resolved
    rw [hints_ofKind, hhints]
    rfl
  simp only [tokensAs, hresolved, List.map_zipWith, FieldDecl.tokens_ofData]

theorem tokensAs_namedTuple :
    decl.tokensAs classes tagKey .namedTuple =
      List.zipWith (fun _ hint => Annotation.tokens hint) decl.fields hints := by
  have hresolved : (decl.ofKind .namedTuple).resolved classes tagKey =
      List.zipWith FieldDecl.ofNamedTuple decl.fields hints := by
    unfold resolved
    rw [hints_ofKind, hhints]
    rfl
  simp only [tokensAs, hresolved, List.map_zipWith, FieldDecl.tokens_ofNamedTuple]

end Hints

theorem tokensAs_model {hints : List Annotation}
    (heach : List.Forall₂ (fun field hint => FieldDecl.hint classes field = .ok hint)
      decl.fields hints) :
    decl.tokensAs classes tagKey .model = List.zipWith (fun field hint =>
      Annotation.tokens hint ++ Annotation.hiddenTokens hint ++ FieldDecl.noteTokens field tagKey)
      decl.fields hints := by
  simp only [tokensAs, resolved, ofKind]
  generalize decl.fields = fields at heach
  induction heach with
  | nil => rfl
  | cons hhint _ ih =>
      simp only [List.map_cons, List.zipWith_cons_cons, hhint, FieldDecl.tokens_ofModel, ih]

/--
Declared of the three kinds of record types, the fields collect the same tokens in the same order, field by field,
exactly if no annotation has rules below its outermost markers: a model has the tokens of those as well, and
the other kinds lose them, never a token of another place.  A named tuple has what a data record has to
which nothing is attached.
-/
theorem record_kinds_collect (decl : RecordDecl) (classes : String → Option Class) (tagKey : String)
    (hknown : ∀ field ∈ decl.fields, ∀ name ∈ field.declared.names, (classes name).isSome) :
    ∃ hints, decl.hints classes = .ok hints ∧ hints.length = decl.fields.length ∧
      (decl.tokensAs classes tagKey .data = decl.tokensAs classes tagKey .model ↔
        ∀ hint ∈ hints, hint.hiddenTokens = []) ∧
      List.Forall₂ List.Sublist (decl.tokensAs classes tagKey .data)
        (decl.tokensAs classes tagKey .model) ∧
      ((∀ field ∈ decl.fields, field.note tagKey = "") →
        decl.tokensAs classes tagKey .namedTuple = decl.tokensAs classes tagKey .data) := by
  obtain ⟨hints, hhints, heach⟩ := exists_hints hknown
  refine ⟨hints, hhints, heach.length_eq.symm, ?_⟩
  rw [tokensAs_data hhints, tokensAs_model heach, tokensAs_namedTuple hhints]
  clear hhints hknown
  generalize decl.fields = fields at heach
  induction heach with
  | nil => simp
  | @cons field hint fields hints _ _ ih =>
      obtain ⟨hiff, hsublists, htuple⟩ := ih
      refine ⟨?_, ?_, ?_⟩
      · rw [List.zipWith_cons_cons, List.zipWith_cons_cons, List.cons.injEq, hiff,
          List.forall_mem_cons, List.append_left_inj, List.self_eq_append_right]
      · exact .cons (by simp) hsublists
      · intro hnotes
        have hnote := hnotes field List.mem_cons_self
        have hempty : (RuleSet.parse "").tokens = [] := by decide
        have hrest := htuple fun other hother => hnotes other (List.mem_cons_of_mem _ hother)
        simp [hrest, FieldDecl.noteTokens, hnote, hempty]

/-- A guest: a name with two markers, perhaps a title with one, and an age with a text attached. -/
def guest : RecordDecl :=
  ⟨⟨"Guest", .data, false⟩,
    [⟨"name", .annotated (.bare (.builtIn .text)) [.rules "required", .rules "len<=32,toupper"], []⟩,
      ⟨"title", .union [.annotated (.bare (.builtIn .text)) [.rules "len<=8"], .null], []⟩,
      ⟨"age", .bare (.builtIn .int), [("rules", "val>=0")]⟩], none, none⟩

/-- The rules of a guest are the same for a data record and for a model. -/
theorem record_kinds_collect_guest :
    (∀ field ∈ guest.fields, ∀ name ∈ field.declared.names,
        ((fun _ => none : String → Option Class) name).isSome) ∧
      guest.tokensAs (fun _ => none) "rules" .data = guest.tokensAs (fun _ => none) "rules" .model ∧
      guest.tokensAs (fun _ => none) "rules" .data =
        [["required", "len<=32", "toupper"], ["len<=8"], ["val>=0"]] := by
  have hknown : ∀ field ∈ guest.fields, ∀ name ∈ field.declared.names,
      ((fun _ => none : String → Option Class) name).isSome := by
    decide
  obtain ⟨hints, hhints, -, hiff, -⟩ := record_kinds_collect guest (fun _ => none) "rules" hknown
  have hsame : Except.ok hints = guest.hints fun _ => none := hhints.symm
  cases hsame
  exact ⟨hknown, hiff.2 (by decide), by decide +kernel⟩

/-- A member that must be given, perhaps of at most three letters. -/
def member : RecordDecl :=
  ⟨⟨"Member", .data, false⟩,
    [⟨"name", .annotated (.union [.annotated (.bare (.builtIn .text)) [.rules "len<=3"], .null])
      [.rules "required"], []⟩], none, none⟩

/-- Below the outermost markers of an annotation, rules get lost unless a model declares them. -/
theorem hidden_rules_lost :
    (∀ field ∈ member.fields, field.declared.names = []) ∧
      member.tokensAs (fun _ => none) "rules" .data = [["required"]] ∧
      member.tokensAs (fun _ => none) "rules" .namedTuple = [["required"]] ∧
      member.tokensAs (fun _ => none) "rules" .model = [["required", "len<=3"]] := by
  refine ⟨by decide, by decide +kernel, by decide +kernel, by decide +kernel⟩

end RecordDecl

end RuleCheck
