import RuleCheck.Category

/-! # Annotations of thawed types

To thaw a record type is to let its fields be assigned.  An annotation of thawed types says the same about
values as before, as long as no two types that it mentions become one.
-/

namespace RuleCheck

/-- The head of a record whose type may be thawed, by its name. -/
def RecordHead.thaw (p : String → Bool) (head : RecordHead) : RecordHead :=
  { head with frozen := head.frozen && !p head.name }

namespace Class

def thaw (p : String → Bool) : Class → Class
  | record head => record (head.thaw p)
  | other => other

def head? : Class → Option RecordHead
  | record head => some head
  | _ => none

end Class

namespace Annotation

mutual

def thaw (p : String → Bool) : Annotation → Annotation
  | .bare base => .bare (base.thaw p)
  | .applied base arguments => .applied (base.thaw p) (thawList p arguments)
  | .tupleOf item => .tupleOf (thaw p item)
  | .union members => .union (thawList p members)
  | .annotated inner markers => .annotated (thaw p inner) markers
  | .newType name inner => .newType name (thaw p inner)
  | other => other

def thawList (p : String → Bool) : List Annotation → List Annotation
  | [] => []
  | a :: list => thaw p a :: thawList p list

end

mutual

def heads : Annotation → List RecordHead
  | .bare base => base.head?.toList
  | .applied base arguments => base.head?.toList ++ headsList arguments
  | .tupleOf item => heads item
  | .union members => headsList members
  | .annotated inner _ => heads inner
  | .newType _ inner => heads inner
  | _ => []

def headsList : List Annotation → List RecordHead
  | [] => []
  | a :: list => heads a ++ headsList list

end

theorem thawList_eq_map (p : String → Bool) (list : List Annotation) :
    thawList p list = list.map (thaw p) := by
  induction list with
  | nil => rfl
  | cons a list ih => simp [thawList, ih]

theorem headsList_eq_flatMap (list : List Annotation) : headsList list = list.flatMap heads := by
  induction list with
  | nil => rfl
  | cons a list ih => simp [headsList, ih]

def Mentions (P : RecordHead → Prop) (a : Annotation) : Prop :=
  ∀ head ∈ a.heads, P head

theorem mentions_absent {P : RecordHead → Prop} : absent.Mentions P := by
  intro head hhead
  simp [heads] at hhead

theorem mentions_union_iff {P : RecordHead → Prop} {list : List Annotation} :
    Mentions P (.union list) ↔ ∀ a ∈ list, a.Mentions P := by
  simp only [Mentions, heads, headsList_eq_flatMap, List.mem_flatMap]
  exact ⟨fun h a ha head hhead => h head ⟨a, ha, hhead⟩,
    fun h head ⟨a, ha, hhead⟩ => h a ha head hhead⟩

theorem mentions_of_applied {P : RecordHead → Prop} {base : Class} {arguments : List Annotation}
    (h : Mentions P (.applied base arguments)) : ∀ a ∈ arguments, a.Mentions P := by
  intro a ha head hhead
  refine h head ?_
  rw [heads, headsList_eq_flatMap]
  exact List.mem_append_right _ (List.mem_flatMap.2 ⟨a, ha, hhead⟩)

end Annotation

def Separates (p : String → Bool) (P : RecordHead → Prop) : Prop :=
  ∀ first second, P first → P second → first.thaw p = second.thaw p → first = second

variable {p : String → Bool} {P : RecordHead → Prop}

theorem Class.thaw_beq (hsep : Separates p P) {base other : Class}
    (hbase : ∀ head ∈ base.head?.toList, P head) (hother : ∀ head ∈ other.head?.toList, P head) :
    (base.thaw p == other.thaw p) = (base == other) := by
  rw [Bool.eq_iff_iff, beq_iff_eq, beq_iff_eq]
  constructor
  · intro h
    cases base <;> cases other <;> simp only [thaw, record.injEq, reduceCtorEq] at h ⊢ <;>
      first
        | exact h
        | exact hsep _ _ (hbase _ (by simp [head?])) (hother _ (by simp [head?])) h
  · rintro rfl
    rfl

namespace Annotation

mutual

theorem same_thaw (hsep : Separates p P) : (a b : Annotation) → a.Mentions P → b.Mentions P →
    same (a.thaw p) (b.thaw p) = same a b
  | .absent, b, _, _ | .any, b, _, _ | .forward _, b, _, _ | .variable _, b, _, _
  | .literal _, b, _, _ => by cases b <;> simp [thaw, same]
  | .bare base, b, ha, hb => by
      cases b <;> simp only [thaw, same]
      exact Class.thaw_beq hsep (by simpa [Mentions, heads] using ha)
        (by simpa [Mentions, heads] using hb)
  | .applied base arguments, b, ha, hb => by
      cases b <;> simp only [thaw, same]
      rename_i other others
      simp only [Mentions, heads, List.mem_append] at ha hb
      rw [Class.thaw_beq hsep (fun head h => ha head (.inl h)) (fun head h => hb head (.inl h)),
        sameList_thaw hsep arguments others (fun head h => ha head (.inr h))
          (fun head h => hb head (.inr h))]
  | .tupleOf item, b, ha, hb => by
      cases b <;> simp only [thaw, same]
      exact same_thaw hsep _ _ ha hb
  | .union members, b, ha, hb => by
      cases b <;> simp only [thaw, same]
      rename_i others
      rw [among_thaw hsep members others ha hb]
      simp [thawList_eq_map]
  | .annotated inner markers, b, ha, hb => by
      cases b <;> simp only [thaw, same]
      rename_i other _
      rw [same_thaw hsep inner other ha hb]
  | .newType name inner, b, ha, hb => by
      cases b <;> simp only [thaw, same]
      rename_i other
      rw [same_thaw hsep inner other ha hb]

theorem sameList_thaw (hsep : Separates p P) : (list others : List Annotation) →
    (∀ head ∈ headsList list, P head) → (∀ head ∈ headsList others, P head) →
    sameList (thawList p list) (thawList p others) = sameList list others
  | [], others, _, _ => by cases others <;> simp [thawList, sameList]
  | a :: list, [], _, _ => by simp [thawList, sameList]
  | a :: list, b :: others, ha, hb => by
      simp only [headsList, List.mem_append] at ha hb
      simp only [thawList, sameList]
      rw [same_thaw hsep a b (fun head h => ha head (.inl h)) (fun head h => hb head (.inl h)),
        sameList_thaw hsep list others (fun head h => ha head (.inr h))
          (fun head h => hb head (.inr h))]

theorem among_thaw (hsep : Separates p P) : (list others : List Annotation) →
    (∀ head ∈ headsList list, P head) → (∀ head ∈ headsList others, P head) →
    among (thawList p list) (thawList p others) = among list others
  | [], others, _, _ => by simp [thawList, among]
  | a :: list, others, ha, hb => by
      simp only [headsList, List.mem_append] at ha
      simp only [thawList, among]
      rw [any_same_thaw hsep a others (fun head h => ha head (.inl h)) hb,
        among_thaw hsep list others (fun head h => ha head (.inr h)) hb]

theorem any_same_thaw (hsep : Separates p P) (a : Annotation) : (others : List Annotation) →
    a.Mentions P → (∀ head ∈ headsList others, P head) →
    (thawList p others).any (same (a.thaw p)) = others.any (same a)
  | [], _, _ => by simp [thawList]
  | b :: others, ha, hb => by
      simp only [headsList, List.mem_append] at hb
      simp only [thawList, List.any_cons]
      rw [same_thaw hsep a b ha (fun head h => hb head (.inl h)),
        any_same_thaw hsep a others ha (fun head h => hb head (.inr h))]

end

/-! ## Unions and markers -/

theorem isNull_thaw (a : Annotation) : (a.thaw p).isNull = a.isNull := by
  cases a with
  | bare base => cases base <;> rfl
  | _ => rfl

theorem filter_present_thaw (list : List Annotation) :
    (list.map (thaw p)).filter (fun a => !a.isNull) = (list.filter fun a => !a.isNull).map (thaw p) := by
  rw [List.filter_map]
  congr 1
  refine List.filter_congr fun a _ => ?_
  simp [isNull_thaw]

theorem members_thaw (a : Annotation) : (a.thaw p).members = a.members.map (thaw p) := by
  cases a <;> simp [thaw, members, thawList_eq_map]

theorem mentions_of_members {a : Annotation} (h : a.Mentions P) : ∀ b ∈ a.members, b.Mentions P := by
  intro b hb
  cases a with
  | union list => exact mentions_union_iff.1 h b hb
  | _ =>
      rw [List.mem_singleton.1 hb]
      exact h

theorem any_same_map_thaw (hsep : Separates p P) {a : Annotation} {list : List Annotation}
    (ha : a.Mentions P) (hlist : ∀ b ∈ list, b.Mentions P) :
    (list.map (thaw p)).any (same (a.thaw p)) = list.any (same a) := by
  rw [← thawList_eq_map]
  refine any_same_thaw hsep a list ha ?_
  intro head hhead
  rw [headsList_eq_flatMap] at hhead
  obtain ⟨b, hb, hhead⟩ := List.mem_flatMap.1 hhead
  exact hlist b hb head hhead

theorem dropRepeated_foldl_thaw (hsep : Separates p P) {list kept : List Annotation}
    (hlist : ∀ a ∈ list, a.Mentions P) (hkept : ∀ a ∈ kept, a.Mentions P) :
    (list.map (thaw p)).foldl
        (fun kept a => if kept.any (same a) then kept else kept ++ [a]) (kept.map (thaw p)) =
      (list.foldl (fun kept a => if kept.any (same a) then kept else kept ++ [a]) kept).map
        (thaw p) ∧
    ∀ a ∈ list.foldl (fun kept a => if kept.any (same a) then kept else kept ++ [a]) kept,
      a.Mentions P := by
  induction list generalizing kept with
  | nil => exact ⟨rfl, hkept⟩
  | cons a list ih =>
      have ha := hlist a (by simp)
      have hrest : ∀ b ∈ list, b.Mentions P := fun b hb => hlist b (by simp [hb])
      simp only [List.map_cons, List.foldl_cons]
      rw [any_same_map_thaw hsep ha hkept]
      by_cases hfound : kept.any (same a) = true
      · rw [if_pos hfound, if_pos hfound]
        exact ih hrest hkept
      · rw [if_neg hfound, if_neg hfound]
        have hmore : ∀ b ∈ kept ++ [a], b.Mentions P := by
          intro b hb
          rcases List.mem_append.1 hb with hb | hb
          · exact hkept b hb
          · rw [List.mem_singleton.1 hb]
            exact ha
        have hstep := ih hrest hmore
        rw [List.map_append] at hstep
        exact hstep

theorem unite_thaw (hsep : Separates p P) {list : List Annotation}
    (hlist : ∀ a ∈ list, a.Mentions P) :
    unite (list.map (thaw p)) = (unite list).thaw p ∧ (unite list).Mentions P := by
  have hmembers : ∀ a ∈ list.flatMap members, a.Mentions P := by
    intro a ha
    obtain ⟨b, hb, ha⟩ := List.mem_flatMap.1 ha
    exact mentions_of_members (hlist b hb) a ha
  have hflat : (list.map (thaw p)).flatMap members = (list.flatMap members).map (thaw p) := by
    simp only [List.flatMap_map, List.map_flatMap, members_thaw]
  have hnone : ∀ a ∈ ([] : List Annotation), a.Mentions P := by simp
  obtain ⟨hdrop, hkept⟩ := dropRepeated_foldl_thaw hsep hmembers hnone
  rw [List.map_nil, ← hflat] at hdrop
  unfold unite dropRepeated
  rw [hdrop]
  generalize List.foldl _ [] (list.flatMap members) = kept at hkept
  have hunion : Mentions P (.union kept) := mentions_union_iff.2 hkept
  match kept, hkept, hunion with
  | [], _, hunion => exact ⟨rfl, hunion⟩
  | [a], hkept, _ => exact ⟨rfl, hkept a (by simp)⟩
  | a :: b :: rest, _, hunion =>
      refine ⟨?_, hunion⟩
      simp [thaw, thawList_eq_map]

theorem annotate_thaw (a : Annotation) (markers : List Marker) :
    (a.thaw p).annotate markers = (a.annotate markers).thaw p := by
  cases a <;> rfl

theorem mentions_annotate {a : Annotation} (h : a.Mentions P) (markers : List Marker) :
    (a.annotate markers).Mentions P := by
  cases a <;> exact h

mutual

theorem size_thaw : (a : Annotation) → (a.thaw p).size = a.size
  | .absent | .any | .bare _ | .forward _ | .variable _ | .literal _ => by simp [thaw, size]
  | .applied _ arguments => by simp [thaw, size, listSize_thaw arguments]
  | .tupleOf item => by simp [thaw, size, size_thaw item]
  | .union members => by simp [thaw, size, listSize_thaw members]
  | .annotated inner _ => by simp [thaw, size, size_thaw inner]
  | .newType _ inner => by simp [thaw, size, size_thaw inner]

theorem listSize_thaw : (list : List Annotation) → listSize (thawList p list) = listSize list
  | [] => by simp [thawList, listSize]
  | a :: list => by simp [thawList, listSize, size_thaw a, listSize_thaw list]

end

mutual

theorem ruleTexts_thaw : (a : Annotation) → (a.thaw p).ruleTexts = a.ruleTexts
  | .absent | .any | .bare _ | .forward _ | .variable _ | .literal _ | .applied .. | .tupleOf _
  | .annotated .. | .newType .. => by simp [thaw, ruleTexts]
  | .union members => by simp [thaw, ruleTexts, ruleTextsList_thaw members]

theorem ruleTextsList_thaw : (list : List Annotation) →
    ruleTextsList (thawList p list) = ruleTextsList list
  | [] => by simp [thawList, ruleTextsList]
  | a :: list => by simp [thawList, ruleTextsList, ruleTexts_thaw a, ruleTextsList_thaw list]

end

/-! ## Names -/

section

variable {classes classes' : String → Option Class}

mutual

/-- Names stand for the thawed types where they stood for the types before. -/
theorem resolveNames_thaw (hsep : Separates p P)
    (hclasses : ∀ name, classes' name = (classes name).map (Class.thaw p))
    (hmentions : ∀ name base, classes name = some base → ∀ head ∈ base.head?.toList, P head) :
    (a : Annotation) → a.Mentions P →
    resolveNames classes' (a.thaw p) = (resolveNames classes a).map (thaw p) ∧
      ∀ b, resolveNames classes a = .ok b → b.Mentions P
  | .absent, _ | .any, _ | .variable _, _ | .literal _, _ => by
      refine ⟨rfl, ?_⟩
      rintro b ⟨⟩ head hhead
      simp [heads] at hhead
  | .bare base, ha => by
      refine ⟨rfl, ?_⟩
      rintro b ⟨⟩
      exact ha
  | .newType name inner, ha => by
      refine ⟨rfl, ?_⟩
      rintro b ⟨⟩
      exact ha
  | .forward name, _ => by
      simp only [thaw, resolveNames, hclasses]
      cases hfound : classes name with
      | none => exact ⟨rfl, by simp⟩
      | some base =>
          refine ⟨rfl, ?_⟩
          rintro b ⟨⟩
          exact hmentions name base hfound
  | .tupleOf item, ha => by
      obtain ⟨hitem, hresult⟩ := resolveNames_thaw hsep hclasses hmentions item ha
      simp only [thaw, resolveNames, hitem]
      cases hfound : resolveNames classes item with
      | error name => exact ⟨rfl, by simp [bind, Except.bind]⟩
      | ok found =>
          refine ⟨rfl, ?_⟩
          rintro b ⟨⟩
          exact hresult found hfound
  | .annotated inner markers, ha => by
      obtain ⟨hinner, hresult⟩ := resolveNames_thaw hsep hclasses hmentions inner ha
      simp only [thaw, resolveNames, hinner]
      cases hfound : resolveNames classes inner with
      | error name => exact ⟨rfl, by simp [bind, Except.bind]⟩
      | ok found =>
          refine ⟨congrArg Except.ok (annotate_thaw found markers), ?_⟩
          rintro b ⟨⟩
          exact mentions_annotate (hresult found hfound) markers
  | .applied base arguments, ha => by
      have hbase : ∀ head ∈ base.head?.toList, P head := fun head h =>
        ha head (List.mem_append_left _ h)
      obtain ⟨harguments, hresult⟩ := resolveNamesList_thaw hsep hclasses hmentions arguments
        fun head h => ha head (List.mem_append_right _ h)
      simp only [thaw, resolveNames, harguments]
      cases hfound : resolveNamesList classes arguments with
      | error name => exact ⟨rfl, by simp [bind, Except.bind]⟩
      | ok found =>
          refine ⟨?_, ?_⟩
          · simp [bind, Except.bind, pure, Except.pure, Except.map, thaw, thawList_eq_map]
          · rintro b ⟨⟩ head hhead
            rw [heads, List.mem_append, headsList_eq_flatMap, List.mem_flatMap] at hhead
            rcases hhead with hhead | ⟨c, hc, hhead⟩
            · exact hbase head hhead
            · exact hresult found hfound c hc head hhead
  | .union members, ha => by
      obtain ⟨hmembers, hresult⟩ := resolveNamesList_thaw hsep hclasses hmentions members ha
      simp only [thaw, resolveNames, hmembers]
      cases hfound : resolveNamesList classes members with
      | error name => exact ⟨rfl, by simp [bind, Except.bind]⟩
      | ok found =>
          obtain ⟨hunite, hunion⟩ := unite_thaw hsep (hresult found hfound)
          refine ⟨congrArg Except.ok hunite, ?_⟩
          rintro b ⟨⟩
          exact hunion

theorem resolveNamesList_thaw (hsep : Separates p P)
    (hclasses : ∀ name, classes' name = (classes name).map (Class.thaw p))
    (hmentions : ∀ name base, classes name = some base → ∀ head ∈ base.head?.toList, P head) :
    (list : List Annotation) → (∀ head ∈ headsList list, P head) →
    resolveNamesList classes' (thawList p list) =
        (resolveNamesList classes list).map (List.map (thaw p)) ∧
      ∀ found, resolveNamesList classes list = .ok found → ∀ b ∈ found, b.Mentions P
  | [], _ => by
      refine ⟨rfl, ?_⟩
      rintro found ⟨⟩
      simp
  | a :: list, ha => by
      simp only [headsList, List.mem_append] at ha
      obtain ⟨hfirst, hfirst'⟩ := resolveNames_thaw hsep hclasses hmentions a
        fun head h => ha head (.inl h)
      obtain ⟨hrest, hrest'⟩ := resolveNamesList_thaw hsep hclasses hmentions list
        fun head h => ha head (.inr h)
      simp only [thawList, resolveNamesList, hfirst, hrest]
      cases hfound : resolveNames classes a with
      | error name => exact ⟨rfl, by simp [bind, Except.bind]⟩
      | ok found =>
          cases hmore : resolveNamesList classes list with
          | error name => exact ⟨rfl, by simp [bind, Except.bind]⟩
          | ok more =>
              refine ⟨rfl, ?_⟩
              rintro b ⟨⟩ c hc
              rcases List.mem_cons.1 hc with rfl | hc
              · exact hfirst' _ hfound
              · exact hrest' more hmore c hc

end

end

end Annotation

end RuleCheck
