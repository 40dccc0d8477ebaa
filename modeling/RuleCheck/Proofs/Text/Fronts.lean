import RuleCheck.Text.Cut

/-! # Fronts that exclude each other

A text starts with at most one of two fronts, unless one of the fronts is a front of the other.
-/

namespace RuleCheck.Text

def Disjoint (front other : String) : Prop :=
  ¬ front.toList <+: other.toList ∧ ¬ other.toList <+: front.toList

instance (front other : String) : Decidable (Disjoint front other) :=
  inferInstanceAs (Decidable (_ ∧ _))

theorem after?_eq_none_of_disjoint {front other s rest : String} (h : after? front s = some rest)
    (hdisjoint : Disjoint front other) : after? other s = none := by
  cases hother : after? other s with
  | none => rfl
  | some tail =>
      have hs := after?_eq_some_iff.1 h
      have hs' := after?_eq_some_iff.1 hother
      have hlist : front.toList ++ rest.toList = other.toList ++ tail.toList := by
        rw [← String.toList_append, ← String.toList_append, ← hs, ← hs']
      have hprefix : front.toList <+: other.toList ++ tail.toList := ⟨_, hlist⟩
      rcases List.prefix_or_prefix_of_prefix hprefix (List.prefix_append _ _) with hfront | hfront
      · exact absurd hfront hdisjoint.1
      · exact absurd hfront hdisjoint.2

theorem argument?_eq_none_of_disjoint {front other s rest : String}
    (h : after? front s = some rest) (hdisjoint : Disjoint front other) :
    argument? other s = none := by
  simp [argument?, after?_eq_none_of_disjoint h hdisjoint]

theorem ne_of_disjoint {front other s rest : String} (h : after? front s = some rest)
    (hdisjoint : Disjoint front other) : s ≠ other := by
  rintro rfl
  have hself : after? s s = some "" := after?_eq_some_iff.2 (by simp)
  rw [after?_eq_none_of_disjoint h hdisjoint] at hself
  cases hself

theorem after?_of_argument? {front s rest : String} (h : argument? front s = some rest) :
    after? front s = some rest :=
  (Option.filter_eq_some_iff.1 h).1

end RuleCheck.Text
