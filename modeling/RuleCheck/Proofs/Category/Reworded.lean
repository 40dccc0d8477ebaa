import RuleCheck.Proofs.Category.Wrapped
import Mathlib.Data.List.Forall2

/-! # Annotations with other markers

The rules that are written on an annotation say nothing about the category of a value.  Two annotations that
differ in markers alone, `unsigned` aside, resolve every value to the same category, and declare the values inside
with annotations that again differ in markers alone.
-/

namespace RuleCheck

namespace Annotation

/--
Whether two annotations differ in markers alone, and not in `unsigned`.  Markers may also be there in one annotation
and not in the other.  Markers in a union can make equal members different, or different ones equal, which then count
as one member.  It makes no difference to a union that has several members beside the missing value on both sides,
whatever they are: there the value decides.  A union that is left with one of them is this one.
-/
inductive Reworded : Annotation → Annotation → Prop
  | refl (a : Annotation) : Reworded a a
  | applied (base : Class) {list list' : List Annotation} (hlength : list.length = list'.length)
      (h : ∀ (i : Nat) a a', list[i]? = some a → list'[i]? = some a' → Reworded a a') :
      Reworded (.applied base list) (.applied base list')
  | tupleOf {item item' : Annotation} (h : Reworded item item') :
      Reworded (.tupleOf item) (.tupleOf item')
  | union {list list' : List Annotation} (hflat : Annotation.IsFlat (.union list))
      (hflat' : Annotation.IsFlat (.union list')) (hnull : list.map isNull = list'.map isNull)
      (h : ∀ (i : Nat) a a', list[i]? = some a → list'[i]? = some a' → Reworded a a') :
      Reworded (.union list) (.union list')
  | several {list list' : List Annotation} (hflat : Annotation.IsFlat (.union list))
      (hflat' : Annotation.IsFlat (.union list')) (hnull : list.any isNull = list'.any isNull)
      (hseveral : 2 ≤ (list.filter fun member => !member.isNull).length)
      (hseveral' : 2 ≤ (list'.filter fun member => !member.isNull).length) :
      Reworded (.union list) (.union list')
  | annotate {a a' : Annotation} {markers markers' : List Marker}
      (hunsigned : markers.contains .unsigned = markers'.contains .unsigned) (h : Reworded a a') :
      Reworded (a.annotate markers) (a'.annotate markers')
  | marked {a a' : Annotation} {markers : List Marker} (hunsigned : markers.contains .unsigned = false)
      (h : Reworded a a') : Reworded a (a'.annotate markers)
  | unmarked {a a' : Annotation} {markers : List Marker} (hunsigned : markers.contains .unsigned = false)
      (h : Reworded a a') : Reworded (a.annotate markers) a'
  | newType (name : String) {a a' : Annotation} (h : Reworded a a') :
      Reworded (.newType name a) (.newType name a')

theorem forall₂_reworded {list list' : List Annotation} (hlength : list.length = list'.length)
    (h : ∀ (i : Nat) a a', list[i]? = some a → list'[i]? = some a' → Reworded a a') :
    List.Forall₂ Reworded list list' := by
  rw [List.forall₂_iff_get]
  refine ⟨hlength, fun i hi hi' => h i _ _ ?_ ?_⟩
  · simp
  · simp

theorem reworded_unite {list list' : List Annotation} (hsingle : ∀ a ∈ list, a.members = [a])
    (hpairs : list.Pairwise fun earlier later => later.same earlier = false)
    (hsingle' : ∀ a ∈ list', a.members = [a])
    (hpairs' : list'.Pairwise fun earlier later => later.same earlier = false)
    (hnull : list.map isNull = list'.map isNull) (h : List.Forall₂ Reworded list list') :
    Reworded (unite list) (unite list') := by
  cases h with
  | nil => exact .refl _
  | @cons a a' _ _ ha hrest =>
      cases hrest with
      | nil =>
          have hown := isFlat_of_members (hsingle a (by simp))
          have hown' := isFlat_of_members (hsingle' a' (by simp))
          rwa [← hsingle a (by simp), ← hsingle' a' (by simp), hown.unite_members, hown'.unite_members]
      | @cons b b' rest rest' hb hrest =>
          have hflat : Annotation.IsFlat (.union (a :: b :: rest)) := ⟨by simp, hsingle, hpairs⟩
          have hflat' : Annotation.IsFlat (.union (a' :: b' :: rest')) := ⟨by simp, hsingle', hpairs'⟩
          have hunite : unite (a :: b :: rest) = .union (a :: b :: rest) := hflat.unite_members
          have hunite' : unite (a' :: b' :: rest') = .union (a' :: b' :: rest') := hflat'.unite_members
          rw [hunite, hunite']
          have hall := List.Forall₂.cons ha (.cons hb hrest)
          refine .union hflat hflat' hnull fun i c c' hc hc' => ?_
          obtain ⟨hi, rfl⟩ := List.getElem?_eq_some_iff.1 hc
          obtain ⟨hi', rfl⟩ := List.getElem?_eq_some_iff.1 hc'
          exact hall.get hi hi'

/-- The members of a flat union beside the missing value form a flat union again, if there are several. -/
theorem isFlat_present {list : List Annotation} (hflat : Annotation.IsFlat (.union list))
    (hseveral : 2 ≤ (list.filter fun member => !member.isNull).length) :
    Annotation.IsFlat (.union (list.filter fun member => !member.isNull)) :=
  ⟨hseveral, fun a ha => hflat.2.1 a (List.mem_filter.1 ha).1, hflat.2.2.filter _⟩

/-- Whether the missing value is among the members of a union is told by the number of the others. -/
theorem length_present_eq_iff (list : List Annotation) :
    (list.filter fun member => !member.isNull).length = list.length ↔ list.any isNull = false := by
  simp [List.length_filter_eq_length_iff, List.any_eq_false]

/-- Of unions that are reworded, the members other than the missing value are reworded. -/
theorem reworded_present {list list' : List Annotation} (hnull : list.map isNull = list'.map isNull)
    (h : List.Forall₂ Reworded list list') :
    List.Forall₂ Reworded (list.filter fun member => !member.isNull)
      (list'.filter fun member => !member.isNull) := by
  induction h with
  | nil => exact .nil
  | @cons a a' list list' ha _ ih =>
      simp only [List.map_cons, List.cons.injEq] at hnull
      rw [List.filter_cons, List.filter_cons, hnull.1]
      split
      · exact .cons ha (ih hnull.2)
      · exact ih hnull.2

end Annotation

/-! ## Categories -/

/-- Whether two results are of one category, and declare what is inside up to markers. -/
structure Resolved.Reworded (resolved resolved' : Resolved) : Prop where
  category : resolved.category = resolved'.category
  element : resolved.element.Reworded resolved'.element
  items : (resolved.items = none ∧ resolved'.items = none) ∨ ∃ list list', resolved.items = some list ∧
    resolved'.items = some list' ∧ List.Forall₂ Annotation.Reworded list list'

namespace Resolved.Reworded

variable {resolved resolved' : Resolved}

theorem refl (resolved : Resolved) : resolved.Reworded resolved := by
  refine ⟨rfl, .refl _, ?_⟩
  cases hitems : resolved.items with
  | none => exact .inl ⟨rfl, rfl⟩
  | some items => exact .inr ⟨items, items, rfl, rfl, List.forall₂_same.2 fun a _ => .refl a⟩

theorem ofElement (category : Category) {a a' : Annotation} (h : a.Reworded a') :
    (Resolved.ofElement category a).Reworded (.ofElement category a') :=
  ⟨rfl, h, .inl ⟨rfl, rfl⟩⟩

theorem item (h : resolved.Reworded resolved') (index : Nat) :
    (resolved.item index).Reworded (resolved'.item index) := by
  unfold Resolved.item
  rcases h.items with ⟨hnone, hnone'⟩ | ⟨list, list', hsome, hsome', hall⟩
  · rw [hnone, hnone']
    exact h.element
  · rw [hsome, hsome']
    clear hsome hsome'
    induction hall generalizing index with
    | nil => exact .refl _
    | cons ha _ ih =>
        cases index with
        | zero => exact ha
        | succ index => exact ih index

theorem settle (h : resolved.Reworded resolved') (value : Value) :
    (value.settle resolved).Reworded (value.settle resolved') := by
  unfold Value.settle
  rw [h.category]
  split
  · exact refl _
  · split
    · exact h
    · exact refl _

end Resolved.Reworded

namespace Class

theorem classify_reworded (base : Class) {list list' : List Annotation}
    (h : List.Forall₂ Annotation.Reworded list list') (unsigned : Bool) :
    (base.classify (.fixed list) unsigned).Reworded (base.classify (.fixed list') unsigned) := by
  have hfirst : (Arguments.fixed list).first.Reworded (Arguments.fixed list').first := by
    cases h with
    | nil => exact .refl _
    | cons ha _ => exact ha
  have hsecond : (Arguments.fixed list).second.Reworded (Arguments.fixed list').second := by
    cases h with
    | nil => exact .refl _
    | cons _ hrest =>
        cases hrest with
        | nil => exact .refl _
        | cons hb hrest =>
            cases hrest with
            | nil => exact hb
            | cons _ _ => exact .refl _
  have htuple : (classifyBuiltIn .tuple (.fixed list) unsigned).Reworded
      (classifyBuiltIn .tuple (.fixed list') unsigned) := by
    cases h with
    | nil => exact .refl _
    | cons ha hrest => exact ⟨rfl, .refl _, .inr ⟨_, _, rfl, rfl, .cons ha hrest⟩⟩
  have hbuiltIn (own : BuiltIn) : (classifyBuiltIn own (.fixed list) unsigned).Reworded
      (classifyBuiltIn own (.fixed list') unsigned) := by
    cases own
    case tuple => exact htuple
    all_goals first
      | exact .refl _
      | exact .ofElement _ hfirst
      | exact .ofElement _ hsecond
  unfold classify
  split
  · exact .refl _
  · split
    · exact hbuiltIn _
    · exact .refl _

end Class

/-- Whatever the rules on an annotation, every value is of the same category under it. -/
theorem Annotation.Reworded.resolveAs {a a' : Annotation} (h : a.Reworded a') (value : Value)
    (unsigned : Bool) : (value.resolveAs unsigned a).Reworded (value.resolveAs unsigned a') := by
  induction h generalizing unsigned with
  | refl a => exact .refl _
  | applied base hlength h _ =>
      exact (base.classify_reworded (forall₂_reworded hlength h) unsigned).settle value
  | @tupleOf item item' h _ =>
      have hrepeated : (Class.classify (.builtIn .tuple) (.repeated item) unsigned).Reworded
          (Class.classify (.builtIn .tuple) (.repeated item') unsigned) := .ofElement .list h
      exact hrepeated.settle value
  | @union list list' hflat hflat' hnull h _ =>
      have hlength : list.length = list'.length := by simpa using congrArg List.length hnull
      have hpresent := reworded_present hnull (forall₂_reworded hlength h)
      have hmembers (list : List Annotation) (hflat : Annotation.IsFlat (.union list)) :
          ∀ a ∈ list.filter fun member => !member.isNull, a.members = [a] :=
        fun a ha => hflat.2.1 a (List.mem_filter.1 ha).1
      have hnone (list : List Annotation) :
          (list.filter fun member => !member.isNull).map isNull =
            (list.filter fun member => !member.isNull).map fun _ => false := by
        refine List.map_congr_left fun a ha => ?_
        simpa using (List.mem_filter.1 ha).2
      have hunite := reworded_unite (hmembers list hflat) (hflat.2.2.filter _) (hmembers list' hflat')
        (hflat'.2.2.filter _) (by rw [hnone, hnone, List.map_const', List.map_const', hpresent.length_eq])
        hpresent
      simp only [Value.resolveAs, hpresent.length_eq, hlength]
      split
      · exact .refl _
      · refine .ofElement .optional ?_
        split
        · exact .annotate rfl hunite
        · exact hunite
  | @several list list' hflat hflat' hnull hseveral hseveral' =>
      have hown := isFlat_present hflat hseveral
      have hown' := isFlat_present hflat' hseveral'
      have hunite := hown.unite_members
      have hunite' := hown'.unite_members
      simp only [members] at hunite hunite'
      have hnone (list : List Annotation) : (list.filter fun member => !member.isNull).any isNull = false := by
        simp
      have hpresent := Annotation.Reworded.several hown hown' (by rw [hnone, hnone])
        (by simpa using hseveral) (by simpa using hseveral')
      simp only [Value.resolveAs, length_present_eq_iff, hnull, hunite, hunite']
      split
      · exact .refl _
      · refine .ofElement .optional ?_
        split
        · exact .annotate rfl hpresent
        · exact hpresent
  | annotate hunsigned _ ih =>
      rw [resolveAs_annotate, resolveAs_annotate, hunsigned]
      exact ih _
  | marked hunsigned _ ih =>
      rw [resolveAs_annotate, hunsigned, Bool.or_false]
      exact ih unsigned
  | unmarked hunsigned _ ih =>
      rw [resolveAs_annotate, hunsigned, Bool.or_false]
      exact ih unsigned
  | newType name _ ih => exact ih unsigned

end RuleCheck
