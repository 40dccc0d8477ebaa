import RuleCheck.Proofs.Thaw.Annotations

/-! # Categories of thawed types

A value resolves to the same category by an annotation of thawed types, and what is declared of the values
inside is thawed.
-/

namespace RuleCheck

variable {p : String → Bool} {P : RecordHead → Prop}

namespace Arguments

/-- The annotations that a class is applied to, with the types in them thawed. -/
def thaw (p : String → Bool) : Arguments → Arguments
  | fixed list => fixed (list.map fun a => a.thaw p)
  | repeated item => repeated (item.thaw p)

end Arguments

namespace Resolved

/-- The category with the types in what is declared of the values inside thawed. -/
def thaw (p : String → Bool) (resolved : Resolved) : Resolved :=
  ⟨resolved.category, resolved.element.thaw p, resolved.items.map (List.map fun a => a.thaw p)⟩

/-- Whether what is declared of the values inside mentions only record types of a kind. -/
def Mentions (P : RecordHead → Prop) (resolved : Resolved) : Prop :=
  resolved.element.Mentions P ∧ ∀ items, resolved.items = some items → ∀ a ∈ items, a.Mentions P

@[simp] theorem category_thaw (resolved : Resolved) :
    (resolved.thaw p).category = resolved.category := rfl

theorem mentions_ofElement {a : Annotation} (h : a.Mentions P) (category : Category) :
    (ofElement category a).Mentions P := by
  refine ⟨h, ?_⟩
  rintro items ⟨⟩

theorem mentions_ofCategory (category : Category) : (ofCategory category).Mentions P :=
  mentions_ofElement Annotation.mentions_absent category

theorem item_thaw (resolved : Resolved) (index : Nat) :
    (resolved.thaw p).item index = (resolved.item index).thaw p := by
  unfold item thaw
  cases resolved.items with
  | none => rfl
  | some items =>
      simp only [Option.map_some, List.getD_eq_getElem?_getD, List.getElem?_map]
      cases items[index]? <;> rfl

theorem Mentions.item {resolved : Resolved} (h : resolved.Mentions P) (index : Nat) :
    (resolved.item index).Mentions P := by
  unfold Resolved.item
  cases hitems : resolved.items with
  | none => exact h.1
  | some items =>
      simp only [List.getD_eq_getElem?_getD]
      cases hitem : items[index]? with
      | none => exact Annotation.mentions_absent
      | some a => exact h.2 items hitems a (List.mem_of_getElem? hitem)

end Resolved

namespace Arguments

variable {arguments : Arguments}

def Mentions (P : RecordHead → Prop) : Arguments → Prop
  | fixed list => ∀ a ∈ list, a.Mentions P
  | repeated item => item.Mentions P

theorem first_thaw (arguments : Arguments) :
    (arguments.thaw p).first = arguments.first.thaw p := by
  match arguments with
  | fixed [] => rfl
  | fixed (_ :: _) => rfl
  | repeated _ => rfl

theorem second_thaw (arguments : Arguments) :
    (arguments.thaw p).second = arguments.second.thaw p := by
  match arguments with
  | fixed [] => rfl
  | fixed [_] => rfl
  | fixed [_, _] => rfl
  | fixed (_ :: _ :: _ :: _) => rfl
  | repeated _ => rfl

theorem Mentions.first (h : arguments.Mentions P) : arguments.first.Mentions P := by
  match arguments, h with
  | fixed [], _ => exact Annotation.mentions_absent
  | fixed (a :: _), h => exact h a (by simp)
  | repeated _, h => exact h

theorem Mentions.second (h : arguments.Mentions P) : arguments.second.Mentions P := by
  match arguments, h with
  | fixed [], _ | fixed [_], _ | repeated _, _ | fixed (_ :: _ :: _ :: _), _ =>
      exact Annotation.mentions_absent
  | fixed [a, b], h => exact h b (by simp)

end Arguments

namespace Class

theorem classifyBuiltIn_thaw (base : BuiltIn) (arguments : Arguments) (unsigned : Bool) :
    classifyBuiltIn base (arguments.thaw p) unsigned =
      (classifyBuiltIn base arguments unsigned).thaw p := by
  cases base
  case tuple =>
    match arguments with
    | .fixed [] => rfl
    | .fixed (_ :: _) => rfl
    | .repeated _ => rfl
  all_goals
    simp only [classifyBuiltIn, Arguments.first_thaw, Arguments.second_thaw]
    rfl

theorem mentions_classifyBuiltIn (base : BuiltIn) {arguments : Arguments}
    (h : arguments.Mentions P) (unsigned : Bool) :
    (classifyBuiltIn base arguments unsigned).Mentions P := by
  cases base
  case tuple =>
    match arguments, h with
    | .fixed [], _ => exact Resolved.mentions_ofCategory _
    | .fixed (a :: list), h =>
        have habsent := Annotation.mentions_absent (P := P)
        refine ⟨habsent, ?_⟩
        rintro items ⟨⟩
        exact h
    | .repeated _, h => exact Resolved.mentions_ofElement h _
  case box | list | deque | set | frozenset | range | sequence => exact Resolved.mentions_ofElement h.first _
  case dict | readOnlyMapping | mapping => exact Resolved.mentions_ofElement h.second _
  all_goals exact Resolved.mentions_ofCategory _

theorem classify_thaw (base : Class) (arguments : Arguments) (unsigned : Bool) :
    (base.thaw p).classify (arguments.thaw p) unsigned =
      (base.classify arguments unsigned).thaw p := by
  cases base with
  | record head => rfl
  | builtIn base => exact classifyBuiltIn_thaw base arguments unsigned
  | derived name base => exact classifyBuiltIn_thaw base arguments unsigned
  | enumeration name mixin =>
      cases mixin with
      | none => rfl
      | some base => exact classifyBuiltIn_thaw base arguments unsigned

theorem mentions_classify (base : Class) {arguments : Arguments} (h : arguments.Mentions P)
    (unsigned : Bool) : (base.classify arguments unsigned).Mentions P := by
  cases base with
  | record head => exact Resolved.mentions_ofCategory _
  | builtIn base => exact mentions_classifyBuiltIn base h unsigned
  | derived name base => exact mentions_classifyBuiltIn base h unsigned
  | enumeration name mixin =>
      cases mixin with
      | none => exact Resolved.mentions_ofCategory _
      | some base => exact mentions_classifyBuiltIn base h unsigned

end Class

namespace Value

variable {value value' : Value}

theorem settle_thaw (hcategory : value'.category = value.category.thaw p)
    (hnull : value'.isNull = value.isNull)
    (hfits : ∀ category, value'.fits category = value.fits category) (resolved : Resolved) :
    value'.settle (resolved.thaw p) = (value.settle resolved).thaw p := by
  unfold settle
  rw [hcategory, hnull, Resolved.category_thaw, hfits]
  by_cases hunsupported : resolved.category = .unsupported
  · rw [if_pos hunsupported, if_pos hunsupported]
  · rw [if_neg hunsupported, if_neg hunsupported]
    split <;> rfl

theorem mentions_settle (hown : value.category.Mentions P) {resolved : Resolved}
    (h : resolved.Mentions P) : (value.settle resolved).Mentions P := by
  unfold settle
  split
  · exact hown
  · split
    · exact h
    · exact hown

open Annotation (filter_present_thaw mentions_annotate mentions_of_applied mentions_union_iff) in
theorem resolveAs_thaw (hsep : Separates p P) (hcategory : value'.category = value.category.thaw p)
    (hown : value.category.Mentions P) (hnull : value'.isNull = value.isNull)
    (hfits : ∀ category, value'.fits category = value.fits category) (unsigned : Bool) :
    (declared : Annotation) → declared.Mentions P →
    value'.resolveAs unsigned (declared.thaw p) = (value.resolveAs unsigned declared).thaw p ∧
      (value.resolveAs unsigned declared).Mentions P
  | .absent, _ | .any, _ | .forward _, _ | .variable _, _ | .literal _, _ => by
      simp only [resolveAs, Annotation.thaw]
      exact ⟨hcategory, hown⟩
  | .annotated inner markers, h => by
      simp only [resolveAs, Annotation.thaw]
      exact resolveAs_thaw hsep hcategory hown hnull hfits _ inner h
  | .newType name inner, h => by
      simp only [resolveAs, Annotation.thaw]
      exact resolveAs_thaw hsep hcategory hown hnull hfits _ inner h
  | .bare base, _ => by
      have hnone : Arguments.none.Mentions P := by simp [Arguments.none, Arguments.Mentions]
      simp only [resolveAs, Annotation.thaw]
      refine ⟨?_, mentions_settle hown (Class.mentions_classify base hnone unsigned)⟩
      rw [← settle_thaw hcategory hnull hfits, ← Class.classify_thaw]
      rfl
  | .applied base arguments, h => by
      have harguments : (Arguments.fixed arguments).Mentions P := mentions_of_applied h
      simp only [resolveAs, Annotation.thaw]
      refine ⟨?_, mentions_settle hown (Class.mentions_classify base harguments unsigned)⟩
      rw [← settle_thaw hcategory hnull hfits, ← Class.classify_thaw, Annotation.thawList_eq_map]
      rfl
  | .tupleOf item, h => by
      have hitem : (Arguments.repeated item).Mentions P := h
      simp only [resolveAs, Annotation.thaw]
      refine ⟨?_, mentions_settle hown (Class.mentions_classify _ hitem unsigned)⟩
      rw [← settle_thaw hcategory hnull hfits, ← Class.classify_thaw]
      rfl
  | .union members, h => by
      have hpresent : ∀ a ∈ members.filter (fun member => !member.isNull), a.Mentions P :=
        fun a ha => mentions_union_iff.1 h a (List.mem_filter.1 ha).1
      obtain ⟨hunite, hunion⟩ := Annotation.unite_thaw hsep hpresent
      simp only [resolveAs, Annotation.thaw, Annotation.thawList_eq_map]
      rw [filter_present_thaw, List.length_map, List.length_map]
      by_cases hall : (members.filter fun member => !member.isNull).length = members.length
      · rw [if_pos hall, if_pos hall]
        exact ⟨hcategory, hown⟩
      · rw [if_neg hall, if_neg hall, hunite]
        cases unsigned with
        | false => exact ⟨rfl, Resolved.mentions_ofElement hunion _⟩
        | true =>
            refine ⟨?_, Resolved.mentions_ofElement (mentions_annotate hunion _) _⟩
            simp only [if_true, Annotation.annotate_thaw]
            rfl

end Value

end RuleCheck
