import RuleCheck.Proofs.Category.Wrapped
import RuleCheck.Proofs.Schema.RecordKinds

/-! # Rules behind the layers of an annotation

The search for a category looks through every layer of an annotation.  The fields of a record take their rules
from some of the layers only: nothing behind a name, nothing behind the outermost markers unless a model declares
the field, and a model nothing behind markers that stand in a union.
-/

namespace RuleCheck

namespace Annotation

/-! ## Unions with the missing value -/

theorem dropRepeated_dropRepeated_append (list more : List Annotation) :
    dropRepeated (dropRepeated list ++ more) = dropRepeated (list ++ more) := by
  have hold := dropRepeated_of_pairwise (dropRepeated_spec list).1
  unfold dropRepeated at hold ⊢
  rw [List.foldl_append, List.foldl_append, hold]

theorem dropRepeated_concat (list : List Annotation) (last : Annotation) :
    dropRepeated (list ++ [last]) =
      if (dropRepeated list).any (same last) then dropRepeated list else dropRepeated list ++ [last] := by
  unfold dropRepeated
  rw [List.foldl_append, List.foldl_cons, List.foldl_nil]

theorem mem_or_any_same_dropRepeated {a : Annotation} {list : List Annotation} (h : a ∈ list) :
    a ∈ dropRepeated list ∨ (dropRepeated list).any (same a) = true := by
  induction list using List.reverseRecOn with
  | nil => cases h
  | append_singleton list last ih =>
      rw [dropRepeated_concat]
      rcases List.mem_append.1 h with hearlier | hlast
      · split
        · exact ih hearlier
        · rw [List.mem_append, List.any_append, Bool.or_eq_true]
          exact (ih hearlier).imp .inl .inl
      · rw [List.mem_singleton.1 hlast]
        split
        · rename_i hknown
          exact .inr hknown
        · exact .inl (List.mem_append_right _ (List.mem_singleton_self last))

theorem any_same_dropRepeated {a : Annotation} (hself : same a a = true) {list : List Annotation}
    (h : a ∈ list) : (dropRepeated list).any (same a) = true := by
  rcases mem_or_any_same_dropRepeated h with hleft | hknown
  · exact List.any_eq_true.2 ⟨a, hleft, hself⟩
  · exact hknown

theorem dropRepeated_sublist (list : List Annotation) : (dropRepeated list).Sublist list := by
  induction list using List.reverseRecOn with
  | nil => exact .slnil
  | append_singleton list last ih =>
      rw [dropRepeated_concat]
      split
      · exact ih.trans (List.sublist_append_left list [last])
      · exact ih.append_right [last]

section Members

variable {list : List Annotation} (hsingle : ∀ a ∈ list, a.members = [a])

include hsingle

theorem members_unite : (unite list).members = dropRepeated list := by
  unfold unite
  rw [flatMap_members hsingle]
  split
  · rename_i single hdrop
    have hmem : single ∈ dropRepeated list := by simp [hdrop]
    rw [hdrop, hsingle single ((dropRepeated_spec list).2.1 single hmem)]
  · rfl

theorem optional_unite : (unite list).optional = unite (list ++ [null]) := by
  have hnull : ∀ a ∈ list ++ [null], a.members = [a] := by
    rw [List.forall_mem_append, List.forall_mem_singleton]
    exact ⟨hsingle, rfl⟩
  have hmembers : [unite list, null].flatMap members = dropRepeated list ++ [null] := by
    rw [List.flatMap_cons, List.flatMap_singleton, members_unite hsingle]
    rfl
  unfold optional
  rw [unite.eq_def [unite list, null], unite.eq_def (list ++ [null]), hmembers, flatMap_members hnull,
    dropRepeated_dropRepeated_append]

/-- A union that has the missing value already does not get it again. -/
theorem unite_append_null (hnull : null ∈ list) : unite (list ++ [null]) = unite list := by
  have hboth : ∀ a ∈ list ++ [null], a.members = [a] := by
    rw [List.forall_mem_append, List.forall_mem_singleton]
    exact ⟨hsingle, rfl⟩
  have hdrop : dropRepeated (list ++ [null]) = dropRepeated list := by
    have hknown := any_same_dropRepeated (same_null null) hnull
    unfold dropRepeated at hknown ⊢
    rw [List.foldl_append, List.foldl_cons, List.foldl_nil, if_pos hknown]
  rw [unite, unite, flatMap_members hboth, flatMap_members hsingle, hdrop]

end Members

theorem eq_null_of_isNull {a : Annotation} (h : a.isNull = true) : a = null := by
  unfold isNull at h
  split at h
  · rfl
  · cases h

theorem members_of_resolveNames {classes : String → Option Class} {a resolved : Annotation}
    (hsingle : a.members = [a]) (h : a.resolveNames classes = .ok resolved) :
    resolved.members = [resolved] := by
  cases a with
  | union list => exact absurd hsingle (members_union_ne list)
  | applied base arguments | tupleOf item =>
      simp only [resolveNames, bind, Except.bind, pure, Except.pure] at h
      split at h
      · cases h
      · cases h
        rfl
  | annotated inner markers =>
      simp only [resolveNames, bind, Except.bind, pure, Except.pure] at h
      split at h
      · cases h
      · cases h
        unfold annotate
        split <;> rfl
  | forward name =>
      simp only [resolveNames] at h
      split at h
      · cases h
        rfl
      · cases h
  | _ =>
      cases h
      rfl

theorem annotate_annotate (a : Annotation) (markers more : List Marker) :
    (a.annotate markers).annotate more = a.annotate (markers ++ more) := by
  cases a <;> simp [annotate]

section Names

variable {classes : String → Option Class}

theorem resolveNamesList_eq_ok {list resolved : List Annotation} :
    resolveNamesList classes list = .ok resolved ↔
      List.Forall₂ (fun a a' => resolveNames classes a = .ok a') list resolved := by
  induction list generalizing resolved with
  | nil =>
      rw [resolveNamesList, List.forall₂_nil_left_iff]
      exact ⟨fun h => by cases h; rfl, fun h => by rw [h]⟩
  | cons a list ih =>
      simp only [resolveNamesList, bind, Except.bind, pure, Except.pure, List.forall₂_cons_left_iff, ← ih]
      cases ha : resolveNames classes a with
      | error name => simp
      | ok first =>
          cases hlist : resolveNamesList classes list with
          | error name => simp
          | ok rest => simp [eq_comm]

/-- A flat annotation with its names resolved is the union of its members, each with its names resolved. -/
theorem IsFlat.exists_resolved {a resolved : Annotation} (hflat : a.IsFlat)
    (h : a.resolveNames classes = .ok resolved) :
    ∃ list, List.Forall₂ (fun a a' => resolveNames classes a = .ok a') a.members list ∧
      (∀ a' ∈ list, a'.members = [a']) ∧ resolved = unite list := by
  have hown (hsingle : a.members = [a]) :
      ∃ list, List.Forall₂ (fun a a' => resolveNames classes a = .ok a') a.members list ∧
        (∀ a' ∈ list, a'.members = [a']) ∧ resolved = unite list := by
    have hresolved := members_of_resolveNames hsingle h
    rw [hsingle]
    refine ⟨[resolved], .cons h .nil, by simpa using hresolved, ?_⟩
    rw [unite, List.flatMap_singleton, hresolved]
    rfl
  cases a with
  | union members =>
      have hsingle := hflat.2.1
      simp only [resolveNames, bind, Except.bind, pure, Except.pure] at h
      split at h
      · cases h
      · rename_i list hlist
        cases h
        rw [resolveNamesList_eq_ok] at hlist
        refine ⟨list, hlist, fun a' ha' => ?_, rfl⟩
        obtain ⟨i, hi, rfl⟩ := List.getElem_of_mem ha'
        exact members_of_resolveNames (hsingle _ (List.getElem_mem _))
          (hlist.get (by rwa [hlist.length_eq]) hi)
  | _ => exact hown rfl

/-- Names are resolved alike whether the missing value is added before or after. -/
theorem IsFlat.resolveNames_optional {a resolved : Annotation} (hflat : a.IsFlat)
    (h : a.resolveNames classes = .ok resolved) :
    a.optional.resolveNames classes = .ok resolved.optional := by
  obtain ⟨list, hlist, hsingle, rfl⟩ := hflat.exists_resolved h
  rw [optional_unite hsingle, hflat.optional_eq]
  split
  · rename_i hnull
    obtain ⟨member, hmember, hmissing⟩ := List.any_eq_true.1 hnull
    obtain ⟨i, hi, hget⟩ := List.getElem_of_mem hmember
    have hi' : i < list.length := by rwa [← hlist.length_eq]
    have hresolved : resolveNames classes a.members[i] = .ok list[i] := hlist.get hi hi'
    rw [hget, eq_null_of_isNull hmissing] at hresolved
    have hkept : null ∈ list := List.mem_of_getElem (Except.ok.inj hresolved).symm
    rw [unite_append_null hsingle hkept]
    exact h
  · have hmore : resolveNamesList classes (a.members ++ [null]) = .ok (list ++ [null]) :=
      resolveNamesList_eq_ok.2 (List.rel_append hlist (.cons rfl .nil))
    simp only [resolveNames, hmore, bind, Except.bind, pure, Except.pure]

theorem IsFlat.resolved {a resolved : Annotation} (hflat : a.IsFlat)
    (h : a.resolveNames classes = .ok resolved) : resolved.IsFlat := by
  obtain ⟨list, hlist, hsingle, rfl⟩ := hflat.exists_resolved h
  refine isFlat_unite ?_ fun a' ha' => isFlat_of_members (hsingle a' ha')
  rintro rfl
  exact hflat.members_ne_nil (List.forall₂_nil_right_iff.1 hlist)

theorem resolveNames_annotated {a resolved : Annotation} (h : a.resolveNames classes = .ok resolved)
    (markers : List Marker) :
    (annotated a markers).resolveNames classes = .ok (resolved.annotate markers) := by
  simp only [resolveNames, h, bind, Except.bind, pure, Except.pure]

theorem resolveNames_annotate {a resolved : Annotation} (h : a.resolveNames classes = .ok resolved)
    (markers : List Marker) :
    (a.annotate markers).resolveNames classes = .ok (resolved.annotate markers) := by
  cases a with
  | annotated inner earlier =>
      cases hinner : inner.resolveNames classes with
      | error name =>
          simp only [resolveNames, hinner, bind, Except.bind] at h
          cases h
      | ok known =>
          rw [resolveNames_annotated hinner, Except.ok.injEq] at h
          rw [← h, annotate_annotate]
          exact resolveNames_annotated hinner _
  | _ => exact resolveNames_annotated h markers

end Names

/-! ## What layers leave of the rules -/

theorem ruleTextsList_append (list more : List Annotation) :
    ruleTextsList (list ++ more) = ruleTextsList list ++ ruleTextsList more := by
  induction list with
  | nil => rfl
  | cons a list ih => simp [ruleTextsList, ih]

theorem ruleTexts_eq_members {a : Annotation} : a.ruleTexts = ruleTextsList a.members := by
  cases a <;> simp [members, ruleTexts, ruleTextsList]

/-- The missing value comes with no rules. -/
theorem IsFlat.tokens_optional {a : Annotation} (h : a.IsFlat) : a.optional.tokens = a.tokens := by
  have htexts : a.optional.ruleTexts = a.ruleTexts := by
    rw [h.optional_eq]
    split
    · rfl
    · rw [ruleTexts_eq_members, members, ruleTextsList_append, ← ruleTexts_eq_members]
      exact List.append_nil _
  rw [tokens, tokens, htexts]

/-- Below the missing value no markers are the outermost ones. -/
theorem IsFlat.hiddenTokens_optional {a : Annotation} (h : a.IsFlat) : a.optional.hiddenTokens = [] := by
  rw [h.optional_eq]
  split
  · rename_i hnull
    cases a with
    | annotated inner markers => cases hnull
    | _ => rfl
  · rfl

end Annotation

namespace RecordKind

def takes : RecordKind → Annotation → List String
  | data, hint => hint.tokens
  | model, hint => hint.tokens ++ hint.hiddenTokens
  | namedTuple, hint => hint.tokens
  | plainNamedTuple, _ => []

def notes (tagKey : String) : RecordKind → FieldDecl → List String
  | data, field => field.noteTokens tagKey
  | model, field => field.noteTokens tagKey
  | namedTuple, _ => []
  | plainNamedTuple, _ => []

end RecordKind

namespace Annotation.Layer

def isPlain : Layer → Bool
  | marked (.other _) => true
  | marked _ => false
  | _ => true

theorem isUnsigned_of_isPlain {layer : Layer} (h : layer.isPlain = true) : layer.isUnsigned = false := by
  cases layer with
  | marked marker => cases marker <;> first | rfl | cases h
  | _ => rfl

def lost (kind : RecordKind) : Layer → Annotation → List String
  | named _, hint => kind.takes hint
  | optional, hint => if kind = .model then hint.hiddenTokens else []
  | marked _, .annotated _ _ => []
  | marked _, hint => if kind = .model then [] else kind.takes hint

/-- What is lost behind a layer comes last, and nothing comes in its place. -/
theorem takes_around {layer : Layer} (hplain : layer.isPlain = true) {hint : Annotation}
    (hflat : hint.IsFlat) (kind : RecordKind) :
    kind.takes hint = kind.takes (layer.around hint) ++ layer.lost kind hint := by
  cases layer with
  | named name => cases kind <;> rfl
  | optional =>
      cases kind <;>
        simp [RecordKind.takes, around, lost, hflat.tokens_optional, hflat.hiddenTokens_optional]
  | marked marker =>
      obtain ⟨note, rfl⟩ : ∃ note, marker = .other note := by
        cases marker with
        | other note => exact ⟨note, rfl⟩
        | _ => cases hplain
      cases hint <;> cases kind <;>
        simp [RecordKind.takes, around, lost, annotate, tokens, hiddenTokens, ruleTexts, markerRules,
          RuleSet.tokensOf]

end Annotation.Layer

open Annotation (Layer)

namespace FieldDecl

variable {classes : String → Option Class} {field : FieldDecl}

/-- What is declared of a field; without an annotation, the missing value. -/
def given (field : FieldDecl) : Annotation :=
  match field.declared with
  | .absent => .null
  | declared => declared

theorem hint_eq_given (field : FieldDecl) : field.hint classes = field.given.resolveNames classes := by
  cases hdeclared : field.declared <;> simp [hint, given, hdeclared, Annotation.null, Annotation.resolveNames]

def behind (layer : Layer) (field : FieldDecl) : FieldDecl :=
  { field with declared := layer.around field.given }

theorem isFlat_given (h : field.declared.IsFlat) : field.given.IsFlat := by
  unfold given
  split
  · trivial
  · exact h

theorem given_behind (h : field.declared.IsFlat) (layer : Layer) :
    (field.behind layer).given = layer.around field.given := by
  have hgiven : field.given ≠ .absent := by
    unfold given
    split
    · nofun
    · assumption
  have hsome : layer.around field.given ≠ .absent := by
    cases layer with
    | named name => simp [Layer.around]
    | marked marker =>
        show field.given.annotate [marker] ≠ .absent
        unfold Annotation.annotate
        split <;> simp
    | optional =>
        rw [Layer.around, (isFlat_given h).optional_eq]
        split
        · exact hgiven
        · simp
  unfold given behind
  split
  · contradiction
  · rfl

/-- Names behind another name are not resolved; every other layer is put around what is resolved. -/
theorem exists_hint_behind (hflat : field.declared.IsFlat) {hint : Annotation}
    (h : field.hint classes = .ok hint) (layer : Layer) :
    ∃ behind, (field.behind layer).hint classes = .ok behind ∧
      ∀ kind : RecordKind, kind.takes behind = kind.takes (layer.around hint) := by
  rw [hint_eq_given] at h
  rw [hint_eq_given, given_behind hflat]
  cases layer with
  | named name => exact ⟨.newType name field.given, rfl, fun kind => by cases kind <;> rfl⟩
  | optional => exact ⟨_, (isFlat_given hflat).resolveNames_optional h, fun _ => rfl⟩
  | marked marker => exact ⟨_, Annotation.resolveNames_annotate h [marker], fun _ => rfl⟩

end FieldDecl

namespace RecordDecl

variable {classes : String → Option Class} {tagKey : String} {decl : RecordDecl}

/-- The tokens that a field has if the declarations are those of a record type of a kind, field by field. -/
def tokensOf (classes : String → Option Class) (tagKey : String) (kind : RecordKind) (field : FieldDecl) :
    List String :=
  match field.hint classes with
  | .ok hint => kind.takes hint ++ kind.notes tagKey field
  | .error _ => []

theorem tokensOf_eq {field : FieldDecl} {hint : Annotation} (h : field.hint classes = .ok hint)
    (kind : RecordKind) :
    tokensOf classes tagKey kind field = kind.takes hint ++ kind.notes tagKey field := by
  simp [tokensOf, h]

/-- If all names can be resolved, each field has its tokens for itself. -/
theorem tokensAs_eq_map (h : ∀ field ∈ decl.fields, ∃ hint, FieldDecl.hint classes field = .ok hint)
    (kind : RecordKind) :
    decl.tokensAs classes tagKey kind = decl.fields.map (tokensOf classes tagKey kind) := by
  obtain ⟨hints, hhints, heach⟩ := hints_of_forall h
  have hmap : decl.fields.map (tokensOf classes tagKey kind) = List.zipWith
      (fun field hint => kind.takes hint ++ kind.notes tagKey field) decl.fields hints := by
    clear hhints h
    generalize decl.fields = fields at heach
    induction heach with
    | nil => rfl
    | cons hhint _ ih => rw [List.map_cons, List.zipWith_cons_cons, tokensOf_eq hhint, ih]
  rw [hmap]
  cases kind with
  | data => exact tokensAs_data hhints
  | model => exact tokensAs_model heach
  | namedTuple => simpa [RecordKind.takes, RecordKind.notes] using tokensAs_namedTuple hhints
  | plainNamedTuple =>
      have hempty : (RuleSet.parse "").tokens = [] := by decide
      rw [← hmap, tokensAs, resolved, ofKind, List.map_map]
      refine List.map_congr_left fun field hfield => ?_
      obtain ⟨hint, hhint⟩ := h field hfield
      rw [tokensOf_eq hhint]
      exact hempty

def withField (decl : RecordDecl) (index : Nat) (field : FieldDecl) : RecordDecl :=
  { decl with fields := decl.fields.set index field }

/--
A field of a record of any kind keeps its rules behind a layer around its annotation exactly if no token
gets lost there: behind another name all of them do; behind the missing value those that a model takes from
below the outermost markers; and behind a marker those of an annotation that is not marked, unless a model declares
it.  No other field changes, and a token is never found in another place.  The search for a category looks
through the layer all the same.
-/
theorem rules_behind_layers (decl : RecordDecl) (classes : String → Option Class) (tagKey : String)
    (hknown : ∀ field ∈ decl.fields, ∀ name ∈ field.declared.names, (classes name).isSome)
    {index : Nat} {field : FieldDecl} (hfield : decl.fields[index]? = some field)
    (hflat : field.declared.IsFlat) {layer : Layer} (hplain : layer.isPlain = true) :
    ∃ hint, field.hint classes = .ok hint ∧
      (∀ value : Value, value.resolve (layer.around hint) = value.resolve hint ∨
        value.resolve (layer.around hint) = .ofElement .optional hint) ∧
      ∀ kind,
        (decl.tokensAs classes tagKey kind)[index]? =
          some (kind.takes (layer.around hint) ++ layer.lost kind hint ++ kind.notes tagKey field) ∧
        (decl.withField index (field.behind layer)).tokensAs classes tagKey kind =
          (decl.tokensAs classes tagKey kind).set index
            (kind.takes (layer.around hint) ++ kind.notes tagKey field) ∧
        ((decl.withField index (field.behind layer)).tokensAs classes tagKey kind =
          decl.tokensAs classes tagKey kind ↔ layer.lost kind hint = []) := by
  have hhints (field) (hmem : field ∈ decl.fields) : ∃ hint, FieldDecl.hint classes field = .ok hint :=
    field.exists_hint (hknown field hmem)
  have hmem := List.mem_of_getElem? hfield
  obtain ⟨hint, hhint⟩ := hhints field hmem
  obtain ⟨behind, hbehind, htakes⟩ := FieldDecl.exists_hint_behind hflat hhint layer
  have hresolved : hint.IsFlat := by
    rw [FieldDecl.hint_eq_given] at hhint
    exact (FieldDecl.isFlat_given hflat).resolved hhint
  refine ⟨hint, hhint, fun value => ?_, fun kind => ?_⟩
  · have hplainly : layer.isUnsigned = false := Layer.isUnsigned_of_isPlain hplain
    rcases Annotation.resolveAs_around hresolved value false layer with hthrough | ⟨hlayer, -⟩
    · rw [hplainly] at hthrough
      exact .inl hthrough
    · exact .inr hlayer
  have hold : tokensOf classes tagKey kind field =
      kind.takes (layer.around hint) ++ layer.lost kind hint ++ kind.notes tagKey field := by
    rw [tokensOf_eq hhint, ← Layer.takes_around hplain hresolved]
  have hnew : tokensOf classes tagKey kind (field.behind layer) =
      kind.takes (layer.around hint) ++ kind.notes tagKey field := by
    rw [tokensOf_eq hbehind, htakes]
    cases kind <;> rfl
  have hafter (other) (hother : other ∈ (decl.withField index (field.behind layer)).fields) :
      ∃ hint, FieldDecl.hint classes other = .ok hint := by
    rcases List.mem_or_eq_of_mem_set hother with hsame | rfl
    · exact hhints other hsame
    · exact ⟨behind, hbehind⟩
  have hset : (decl.withField index (field.behind layer)).tokensAs classes tagKey kind =
      (decl.tokensAs classes tagKey kind).set index
        (kind.takes (layer.around hint) ++ kind.notes tagKey field) := by
    rw [tokensAs_eq_map hafter, tokensAs_eq_map hhints, ← hnew, ← List.map_set]
    rfl
  have hget : (decl.tokensAs classes tagKey kind)[index]? =
      some (kind.takes (layer.around hint) ++ layer.lost kind hint ++ kind.notes tagKey field) := by
    rw [tokensAs_eq_map hhints, List.getElem?_map, hfield, Option.map_some, hold]
  refine ⟨hget, hset, ?_⟩
  obtain ⟨hlt, hat⟩ := List.getElem?_eq_some_iff.1 hget
  rw [hset]
  constructor
  · intro hsame
    have hboth := congrArg (fun tokens => tokens[index]?) hsame
    simp only [List.getElem?_set_self hlt, hget, Option.some.injEq, List.append_left_inj] at hboth
    exact List.self_eq_append_right.1 hboth
  · intro hnone
    rw [hnone, List.append_nil] at hat
    rw [← hat, List.set_getElem_self]

/-- The name of a guest has markers already, so that another one that says nothing hides no rules. -/
theorem rules_behind_layers_guest :
    let name : FieldDecl :=
      ⟨"name", .annotated (.bare (.builtIn .text)) [.rules "required", .rules "len<=32,toupper"], []⟩
    let legal : Layer := .marked (.other "legal")
    (∀ field ∈ guest.fields, ∀ name ∈ field.declared.names,
        ((fun _ => none : String → Option Class) name).isSome) ∧
      guest.fields[0]? = some name ∧ name.declared.IsFlat ∧ legal.isPlain = true ∧
      (guest.withField 0 (name.behind legal)).tokensAs (fun _ => none) "rules" .data =
        guest.tokensAs (fun _ => none) "rules" .data := by
  intro name legal
  have hknown : ∀ field ∈ guest.fields, ∀ name ∈ field.declared.names,
      ((fun _ => none : String → Option Class) name).isSome := by
    decide
  have hfield : guest.fields[0]? = some name := rfl
  have hplain : legal.isPlain = true := rfl
  obtain ⟨hint, hhint, -, heach⟩ :=
    rules_behind_layers guest (fun _ => none) "rules" hknown hfield trivial hplain
  cases hhint
  exact ⟨hknown, hfield, trivial, hplain, (heach .data).2.2.mpr rfl⟩

def account : RecordDecl :=
  ⟨⟨"Account", .data, false⟩,
    [⟨"name", .annotated (.bare (.builtIn .text)) [.rules "required"], []⟩], none, none⟩

def aliased : RecordDecl :=
  account.withField 0
    ⟨"name", .newType "Name" (.annotated (.bare (.builtIn .text)) [.rules "required"]), []⟩

/-- Behind another name for its type, a field has no rules any more, whatever kind of record declares it. -/
theorem rules_lost_behind_name :
    ((Value.ofText "").resolve
        (.newType "Name" (.annotated (.bare (.builtIn .text)) [.rules "required"]))).category = .text ∧
      ∀ kind ∈ [RecordKind.data, .model, .namedTuple],
        account.tokensAs (fun _ => none) "rules" kind = [["required"]] ∧
          aliased.tokensAs (fun _ => none) "rules" kind = [[]] := by
  refine ⟨rfl, ?_⟩
  decide +kernel

end RecordDecl

end RuleCheck
