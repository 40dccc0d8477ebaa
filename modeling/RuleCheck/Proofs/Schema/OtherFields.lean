import RuleCheck.Proofs.Schema.FieldLayers
import Mathlib.Data.List.Flatten

/-! # Rules of a field and the annotations of the others

The names in the annotations of a data record or of a named tuple are resolved all together.  If one of them is
unknown, a data record goes on with its annotations as they are written, which have the same rules up to
repetitions unless markers stand below others, but a named tuple has no rules at all any more.  A model resolves
its fields one by one.
-/

namespace RuleCheck

namespace Annotation

variable {classes : String → Option Class}

/-! ## Known names -/

mutual

theorem isSome_of_resolveNames : (a : Annotation) → {resolved : Annotation} →
    a.resolveNames classes = .ok resolved → ∀ name ∈ a.names, (classes name).isSome
  | .absent, _, _ | .any, _, _ | .bare _, _, _ | .newType _ _, _, _ | .variable _, _, _ | .literal _, _, _ => by
      simp [names]
  | .applied base arguments, _, h => by
      cases hlist : resolveNamesList classes arguments with
      | error name => simp [resolveNames, hlist, bind, Except.bind] at h
      | ok list => exact isSome_of_resolveNamesList arguments hlist
  | .tupleOf item, _, h => by
      cases hitem : item.resolveNames classes with
      | error name => simp [resolveNames, hitem, bind, Except.bind] at h
      | ok resolved => exact isSome_of_resolveNames item hitem
  | .union members, _, h => by
      cases hlist : resolveNamesList classes members with
      | error name => simp [resolveNames, hlist, bind, Except.bind] at h
      | ok list => exact isSome_of_resolveNamesList members hlist
  | .annotated inner markers, _, h => by
      cases hinner : inner.resolveNames classes with
      | error name => simp [resolveNames, hinner, bind, Except.bind] at h
      | ok resolved => exact isSome_of_resolveNames inner hinner
  | .forward name, _, h => by
      cases hclass : classes name with
      | none => simp [resolveNames, hclass] at h
      | some base => simp [names, hclass]

theorem isSome_of_resolveNamesList : (list : List Annotation) → {resolved : List Annotation} →
    resolveNamesList classes list = .ok resolved → ∀ name ∈ namesList list, (classes name).isSome
  | [], _, _ => by simp [namesList]
  | a :: list, _, h => by
      cases ha : a.resolveNames classes with
      | error name => simp [resolveNamesList, ha, bind, Except.bind] at h
      | ok first =>
          cases hlist : resolveNamesList classes list with
          | error name => simp [resolveNamesList, ha, hlist, bind, Except.bind] at h
          | ok rest =>
              rw [namesList, List.forall_mem_append]
              exact ⟨isSome_of_resolveNames a ha, isSome_of_resolveNamesList list hlist⟩

end

/-! ## Rules of resolved annotations -/

theorem tokens_eq_flatMap (a : Annotation) : a.tokens = a.members.flatMap tokens := by
  have hlist (list : List Annotation) : RuleSet.tokensOf (ruleTextsList list) = list.flatMap tokens := by
    induction list with
    | nil => rfl
    | cons a list ih => rw [ruleTextsList, RuleSet.tokensOf_append, ih, List.flatMap_cons, tokens]
  rw [tokens, ruleTexts_eq_members, hlist]

theorem tokens_eq_of_same {a b : Annotation} (hsingle : a.members = [a]) (h : same a b = true) :
    a.tokens = b.tokens := by
  cases a with
  | union list => exact absurd hsingle (members_union_ne list)
  | annotated inner markers =>
      cases b with
      | annotated inner' markers' =>
          simp only [same, Bool.and_eq_true, beq_iff_eq] at h
          rw [tokens, tokens, ruleTexts, ruleTexts, h.2]
      | _ => simp [same] at h
  | _ =>
      cases b with
      | annotated inner markers => simp [same] at h
      | union list => simp [same] at h
      | _ => rfl

def isMarked : Annotation → Bool
  | .annotated _ _ => true
  | _ => false

/-- Whether no markers stand directly below those of an annotation, if it has any. -/
def IsMarkedOnce : Annotation → Prop
  | .annotated inner _ => inner.IsFlat ∧ ∀ member ∈ inner.members, member.isMarked = false
  | _ => True

theorem tokens_eq_nil {a : Annotation} (hsingle : a.members = [a]) (hmarked : a.isMarked = false) :
    a.tokens = [] := by
  cases a with
  | union list => exact absurd hsingle (members_union_ne list)
  | annotated inner markers => cases hmarked
  | _ => rfl

theorem annotate_of_not_isMarked {a : Annotation} (h : a.isMarked = false) (markers : List Marker) :
    a.annotate markers = .annotated a markers := by
  cases a with
  | annotated inner earlier => cases h
  | _ => rfl

/-- With its names resolved, what is no union and not marked is not marked either. -/
theorem isMarked_of_resolveNames {a resolved : Annotation} (hsingle : a.members = [a])
    (hmarked : a.isMarked = false) (h : a.resolveNames classes = .ok resolved) :
    resolved.isMarked = false := by
  cases a with
  | union list => exact absurd hsingle (members_union_ne list)
  | annotated inner markers => cases hmarked
  | applied base arguments | tupleOf item =>
      simp only [resolveNames, bind, Except.bind, pure, Except.pure] at h
      split at h
      · cases h
      · cases h
        rfl
  | forward name =>
      simp only [resolveNames] at h
      split at h
      · cases h
        rfl
      · cases h
  | _ =>
      cases h
      rfl

/-- A union of members without markers stays one that is not marked, also if a single member is left. -/
theorem IsFlat.isMarked_resolved {a resolved : Annotation} (hflat : a.IsFlat)
    (hmarked : ∀ member ∈ a.members, member.isMarked = false) (h : a.resolveNames classes = .ok resolved) :
    resolved.isMarked = false := by
  obtain ⟨list, hlist, hsingle, rfl⟩ := hflat.exists_resolved h
  have hnone : ∀ a' ∈ list, a'.isMarked = false := by
    intro a' ha'
    obtain ⟨i, hi, rfl⟩ := List.getElem_of_mem ha'
    have hi' : i < a.members.length := by rwa [hlist.length_eq]
    have hmember := List.getElem_mem hi'
    exact isMarked_of_resolveNames (hflat.members_single _ hmember) (hmarked _ hmember) (hlist.get hi' hi)
  cases hunion : unite list with
  | annotated inner markers =>
      have hleft : annotated inner markers ∈ dropRepeated list := by
        rw [← members_unite hsingle, hunion]
        exact List.mem_singleton_self _
      exact hnone _ ((dropRepeated_spec list).2.1 _ hleft)
  | _ => rfl

/-- With its names resolved, what is no union has the rules that it had. -/
theorem IsMarkedOnce.tokens_resolved {a resolved : Annotation} (honce : a.IsMarkedOnce)
    (hsingle : a.members = [a]) (h : a.resolveNames classes = .ok resolved) :
    resolved.tokens = a.tokens := by
  have hplain (hmarked : a.isMarked = false) : resolved.tokens = a.tokens := by
    have hnone := tokens_eq_nil (members_of_resolveNames hsingle h) (isMarked_of_resolveNames hsingle hmarked h)
    rw [hnone, tokens_eq_nil hsingle hmarked]
  cases a with
  | annotated inner markers =>
      cases hinner : inner.resolveNames classes with
      | error name => simp [resolveNames, hinner, bind, Except.bind] at h
      | ok known =>
          have hknown := honce.1.isMarked_resolved honce.2 hinner
          have hresolved : annotate known markers = resolved := by
            simpa [resolveNames, hinner, bind, Except.bind, pure, Except.pure] using h
          rw [← hresolved, annotate_of_not_isMarked hknown]
          rfl
  | _ => exact hplain rfl

/-- With its names resolved, an annotation has the tokens that it had; only repetitions may be gone. -/
theorem IsFlat.tokens_resolved {a resolved : Annotation} (hflat : a.IsFlat)
    (honce : ∀ member ∈ a.members, member.IsMarkedOnce) (h : a.resolveNames classes = .ok resolved) :
    resolved.tokens.Sublist a.tokens ∧ a.tokens ⊆ resolved.tokens := by
  obtain ⟨list, hlist, hsingle, rfl⟩ := hflat.exists_resolved h
  have hsame : list.flatMap tokens = a.members.flatMap tokens := by
    have hmembers := hflat.members_single
    clear h hflat
    generalize a.members = members at hlist honce hmembers
    induction hlist with
    | nil => rfl
    | cons hfirst _ ih =>
        rw [List.forall_mem_cons] at honce hmembers hsingle
        rw [List.flatMap_cons, List.flatMap_cons, honce.1.tokens_resolved hmembers.1 hfirst,
          ih hsingle.2 honce.2 hmembers.2]
  rw [tokens_eq_flatMap a, tokens_eq_flatMap (unite list), members_unite hsingle, ← hsame]
  refine ⟨(dropRepeated_sublist list).flatMap tokens, fun token htoken => ?_⟩
  obtain ⟨a', ha', hin⟩ := List.mem_flatMap.1 htoken
  rcases mem_or_any_same_dropRepeated ha' with hleft | hknown
  · exact List.mem_flatMap.2 ⟨a', hleft, hin⟩
  · obtain ⟨b, hb, hequal⟩ := List.any_eq_true.1 hknown
    rw [tokens_eq_of_same (hsingle a' ha') hequal] at hin
    exact List.mem_flatMap.2 ⟨b, hb, hin⟩

end Annotation

namespace FieldDecl

variable {classes : String → Option Class}

theorem exists_hint_iff (field : FieldDecl) :
    (∃ hint, field.hint classes = .ok hint) ↔ ∀ name ∈ field.declared.names, (classes name).isSome := by
  refine ⟨?_, field.exists_hint⟩
  rintro ⟨hint, h⟩
  unfold FieldDecl.hint at h
  split at h
  · rename_i hdeclared
    rw [hdeclared]
    exact fun name hname => absurd hname List.not_mem_nil
  · exact Annotation.isSome_of_resolveNames _ h

theorem tokens_hint {field : FieldDecl} (hflat : field.declared.IsFlat)
    (honce : ∀ member ∈ field.declared.members, member.IsMarkedOnce) {hint : Annotation}
    (h : field.hint classes = .ok hint) :
    hint.tokens.Sublist field.declared.tokens ∧ field.declared.tokens ⊆ hint.tokens := by
  unfold FieldDecl.hint at h
  split at h
  · rename_i hdeclared
    cases h
    rw [hdeclared]
    exact ⟨.slnil, List.nil_subset _⟩
  · exact hflat.tokens_resolved honce h

theorem tokens_unresolved (field : FieldDecl) : field.unresolved.tokens = field.declared.tokens := by
  unfold unresolved
  split
  · rename_i name hdeclared
    rw [hdeclared]
    rfl
  · rfl

end FieldDecl

namespace RecordKind

/-- The tokens that a field of a record of a kind has from its annotation if names cannot be resolved. -/
def keeps : RecordKind → FieldDecl → List String
  | data, field => field.declared.tokens
  | _, _ => []

end RecordKind

namespace RecordDecl

variable {classes : String → Option Class} {tagKey : String} {decl : RecordDecl}

def NamesKnown (classes : String → Option Class) (decl : RecordDecl) : Prop :=
  ∀ field ∈ decl.fields, ∀ name ∈ field.declared.names, (classes name).isSome

theorem hints_eq_ok_iff {hints : List Annotation} : decl.hints classes = .ok hints ↔
    List.Forall₂ (fun field hint => FieldDecl.hint classes field = .ok hint) decl.fields hints := by
  unfold RecordDecl.hints
  generalize decl.fields = fields
  induction fields generalizing hints with
  | nil => simp [pure, Except.pure, eq_comm]
  | cons field fields ih =>
      rw [List.mapM_cons, List.forall₂_cons_left_iff]
      cases hfirst : field.hint classes with
      | error name => simp [bind, Except.bind]
      | ok hint =>
          cases hrest : fields.mapM (FieldDecl.hint classes) with
          | error name => simp [bind, Except.bind, ← ih, hrest]
          | ok rest =>
              simp only [bind, Except.bind, pure, Except.pure, Except.ok.injEq, ← ih, hrest]
              constructor
              · rintro rfl
                exact ⟨hint, rest, rfl, rfl, rfl⟩
              · rintro ⟨_, _, rfl, rfl, rfl⟩
                rfl

theorem exists_hints_iff : (∃ hints, decl.hints classes = .ok hints) ↔ decl.NamesKnown classes := by
  constructor
  · rintro ⟨hints, hhints⟩ field hfield
    rw [hints_eq_ok_iff] at hhints
    obtain ⟨i, hi, rfl⟩ := List.getElem_of_mem hfield
    have hhint := hhints.get hi (by rwa [← hhints.length_eq])
    exact (FieldDecl.exists_hint_iff _).1 ⟨_, hhint⟩
  · intro hknown
    obtain ⟨hints, hhints, -⟩ := exists_hints hknown
    exact ⟨hints, hhints⟩

section Field

variable {kind : RecordKind} {index : Nat} {field : FieldDecl} (hfield : decl.fields[index]? = some field)

include hfield

theorem tokensAs_of_namesKnown (hknown : decl.NamesKnown classes) (tagKey : String) (kind : RecordKind) :
    ∃ hint, field.hint classes = .ok hint ∧
      (decl.tokensAs classes tagKey kind)[index]? = some (kind.takes hint ++ kind.notes tagKey field) := by
  have hhints (field) (hmem : field ∈ decl.fields) : ∃ hint, FieldDecl.hint classes field = .ok hint :=
    field.exists_hint (hknown field hmem)
  obtain ⟨hint, hhint⟩ := hhints field (List.mem_of_getElem? hfield)
  refine ⟨hint, hhint, ?_⟩
  rw [tokensAs_eq_map hhints, List.getElem?_map, hfield, Option.map_some, tokensOf_eq hhint]

theorem tokensAs_of_not_namesKnown (hknown : ¬ decl.NamesKnown classes)
    (hkind : kind = .data ∨ kind = .namedTuple) :
    (decl.tokensAs classes tagKey kind)[index]? = some (kind.keeps field ++ kind.notes tagKey field) := by
  obtain ⟨name, hname⟩ : ∃ name, decl.hints classes = .error name := by
    cases hhints : decl.hints classes with
    | error name => exact ⟨name, rfl⟩
    | ok hints => exact absurd (exists_hints_iff.1 ⟨hints, hhints⟩) hknown
  rcases hkind with rfl | rfl
  · have hresolved : (decl.ofKind .data).resolved classes tagKey =
        decl.fields.map fun field => field.ofData tagKey field.unresolved := by
      unfold resolved
      rw [hints_ofKind, hname]
      rfl
    rw [tokensAs, hresolved, List.map_map, List.getElem?_map, hfield, Option.map_some, Function.comp_apply,
      FieldDecl.tokens_ofData, FieldDecl.tokens_unresolved]
    rfl
  · have hresolved : (decl.ofKind .namedTuple).resolved classes tagKey = decl.fields.map FieldDecl.bare := by
      unfold resolved
      rw [hints_ofKind, hname]
      rfl
    have hempty : (RuleSet.parse "").tokens = [] := by decide
    rw [tokensAs, hresolved, List.map_map, List.getElem?_map, hfield]
    exact congrArg some hempty

theorem tokensAs_model_getElem? {decl' : RecordDecl} (hfield' : decl'.fields[index]? = some field) :
    (decl.tokensAs classes tagKey .model)[index]? = (decl'.tokensAs classes tagKey .model)[index]? := by
  simp only [tokensAs, resolved, ofKind, List.map_map, List.getElem?_map, hfield, hfield']

end Field

/--
A field of a data record or of a named tuple has the rules of its own annotation as long as every name in the
declarations is known.  If one is not, whichever field it belongs to, a data record has the rules of the
annotation as it is written, and a named tuple none.  So the annotations of other fields make a difference
exactly if they decide whether all names are known and the annotation does not have the same rules both ways.
A data record loses nothing but repetitions, as long as no markers stand below others, and a model looks at no
other field.  Names are not dotted, and only names are quoted.
-/
theorem rules_beside_others (classes : String → Option Class) (tagKey : String) {decl decl' : RecordDecl}
    {index : Nat} {field : FieldDecl} (hfield : decl.fields[index]? = some field)
    (hfield' : decl'.fields[index]? = some field) {kind : RecordKind}
    (hkind : kind = .data ∨ kind = .namedTuple) :
    (decl.NamesKnown classes → ∃ hint, field.hint classes = .ok hint ∧
      (decl.tokensAs classes tagKey kind)[index]? = some (kind.takes hint ++ kind.notes tagKey field)) ∧
    (¬ decl.NamesKnown classes →
      (decl.tokensAs classes tagKey kind)[index]? = some (kind.keeps field ++ kind.notes tagKey field)) ∧
    ((decl.tokensAs classes tagKey kind)[index]? = (decl'.tokensAs classes tagKey kind)[index]? ↔
      (decl.NamesKnown classes ↔ decl'.NamesKnown classes) ∨
        ∀ hint, field.hint classes = .ok hint → kind.takes hint = kind.keeps field) ∧
    (field.declared.IsFlat → (∀ member ∈ field.declared.members, member.IsMarkedOnce) →
      ∀ hint, field.hint classes = .ok hint →
        (RecordKind.data.takes hint).Sublist (RecordKind.data.keeps field) ∧
          RecordKind.data.keeps field ⊆ RecordKind.data.takes hint) ∧
    (decl.tokensAs classes tagKey .model)[index]? = (decl'.tokensAs classes tagKey .model)[index]? := by
  refine ⟨fun hknown => tokensAs_of_namesKnown hfield hknown tagKey kind,
    fun hknown => tokensAs_of_not_namesKnown hfield hknown hkind, ?_,
    fun hflat honce _ hhint => FieldDecl.tokens_hint hflat honce hhint,
    tokensAs_model_getElem? hfield hfield'⟩
  -- with known names on one side only, what the field takes stands against what it keeps
  have hdiffer {known unknown : RecordDecl} (hknownField : known.fields[index]? = some field)
      (hunknownField : unknown.fields[index]? = some field) (hknown : known.NamesKnown classes)
      (hunknown : ¬ unknown.NamesKnown classes) :
      (known.tokensAs classes tagKey kind)[index]? = (unknown.tokensAs classes tagKey kind)[index]? ↔
        ∀ hint, field.hint classes = .ok hint → kind.takes hint = kind.keeps field := by
    obtain ⟨hint, hhint, htokens⟩ := tokensAs_of_namesKnown hknownField hknown tagKey kind
    rw [htokens, tokensAs_of_not_namesKnown hunknownField hunknown hkind, Option.some.injEq,
      List.append_left_inj]
    simp [hhint]
  by_cases hknown : decl.NamesKnown classes <;> by_cases hknown' : decl'.NamesKnown classes
  · obtain ⟨hint, hhint, htokens⟩ := tokensAs_of_namesKnown hfield hknown tagKey kind
    obtain ⟨hint', hhint', htokens'⟩ := tokensAs_of_namesKnown hfield' hknown' tagKey kind
    rw [hhint, Except.ok.injEq] at hhint'
    simp [htokens, htokens', hhint', hknown, hknown']
  · rw [hdiffer hfield hfield' hknown hknown']
    simp [hknown, hknown']
  · rw [eq_comm, hdiffer hfield' hfield hknown' hknown]
    simp [hknown, hknown']
  · rw [tokensAs_of_not_namesKnown hfield hknown hkind, tokensAs_of_not_namesKnown hfield' hknown' hkind]
    simp [hknown, hknown']

/-- An entry has a name that must be given, and something else. -/
def entry (next : Annotation) : RecordDecl :=
  ⟨⟨"Entry", .namedTuple, false⟩,
    [⟨"name", .annotated (.bare (.builtIn .text)) [.rules "required"], []⟩, ⟨"next", next, []⟩], none, none⟩

/-- An entry that is a data record must have its name, also beside an unknown one. -/
theorem rules_beside_others_entry :
    let known := entry (.bare (.builtIn .int))
    let unknown := entry (.forward "Missing")
    let name : FieldDecl := ⟨"name", .annotated (.bare (.builtIn .text)) [.rules "required"], []⟩
    known.fields[0]? = some name ∧ unknown.fields[0]? = some name ∧
      (known.tokensAs (fun _ => none) "rules" .data)[0]? =
        (unknown.tokensAs (fun _ => none) "rules" .data)[0]? ∧
      (unknown.tokensAs (fun _ => none) "rules" .data)[0]? = some ["required"] := by
  intro known unknown name
  have hfield : known.fields[0]? = some name := rfl
  have hfield' : unknown.fields[0]? = some name := rfl
  obtain ⟨-, -, hiff, -⟩ := rules_beside_others (fun _ => none) "rules" hfield hfield' (.inl rfl)
  refine ⟨hfield, hfield', hiff.2 (.inr fun hint hhint => ?_), by decide +kernel⟩
  cases hhint
  rfl

/-- An entry that is a named tuple has no rules any more beside an unknown name. -/
theorem rules_lost_beside_unknown_name :
    (entry (.bare (.builtIn .int))).tokensAs (fun _ => none) "rules" .namedTuple = [["required"], []] ∧
      (entry (.forward "Missing")).tokensAs (fun _ => none) "rules" .namedTuple = [[], []] := by
  decide +kernel

end RecordDecl

end RuleCheck
