import RuleCheck.Proofs.Category.Stable

/-! # Values below their optional layers

An annotation may allow a value to be missing, in several layers.  A value that is there is taken by what is
declared below them.
-/

namespace RuleCheck.Value

/-- The category of a value, and what is declared of the things inside, below the optional layers. -/
def resolvePresent (value : Value) (declared : Annotation) : Resolved :=
  if _h : value.isNull = false ∧ (value.resolve declared).category = .optional then
    value.resolvePresent (value.resolve declared).element
  else value.resolve declared
termination_by declared.size
decreasing_by exact (resolve_optional _h.1 _h.2).1

theorem resolvePresent_of_ne {value : Value} {declared : Annotation}
    (h : (value.resolve declared).category ≠ .optional) :
    value.resolvePresent declared = value.resolve declared := by
  rw [resolvePresent, dif_neg fun hlayer => h hlayer.2]

theorem category_resolvePresent {value : Value} (hnull : value.isNull = false) (declared : Annotation) :
    ∃ inner, value.resolvePresent declared = value.resolve inner ∧
      (value.resolve inner).category ≠ .optional := by
  fun_induction resolvePresent value declared with
  | case1 declared h ih => exact ih
  | case2 declared h => exact ⟨declared, rfl, fun hcategory => h ⟨hnull, hcategory⟩⟩

/-- A value that fits only one category beside the general ones is of that category, unless it may be missing. -/
theorem category_of_fits {value : Value} {category : Category} (hnull : value.isNull = false)
    (hown : value.category.category = category)
    (hfits : ∀ other, value.fits other = true → other = category ∨ other = .optional ∨ other = .unsupported)
    (declared : Annotation) : (value.resolvePresent declared).category = category := by
  obtain ⟨inner, hinner, hpresent⟩ := category_resolvePresent hnull declared
  rw [hinner]
  cases resolve_action inner with
  | optional element _ h =>
      rw [h] at hpresent
      exact absurd rfl hpresent
  | declares resolved hne _ h =>
      rw [h]
      rcases settle_eq_or value resolved with ⟨heq, hsupported, hholds⟩ | ⟨heq, -⟩
      · rw [heq]
        have hown := hfits _ (hholds.resolve_left (by simp [hnull]))
        exact hown.resolve_right (not_or_intro hne hsupported)
      · rw [heq]
        exact hown

theorem category_sequence (kind : SequenceKind) (derived : Option String) (items : List Value)
    (declared : Annotation) :
    ((sequence kind derived items).resolvePresent declared).category = .list := by
  apply category_of_fits rfl
  · cases kind <;> cases derived <;> rfl
  · intro other hfits
    cases other with
    | record => cases kind <;> cases derived <;> cases hfits
    | optional | list | map | unsupported => simp_all [fits]
    | _ => cases hfits

theorem category_mapping (kind : MappingKind) (derived : Option String) (entries : List (Value × Value))
    (declared : Annotation) :
    ((mapping kind derived entries).resolvePresent declared).category = .map := by
  apply category_of_fits rfl
  · cases kind <;> cases derived <;> rfl
  · intro other hfits
    cases other with
    | record => cases kind <;> cases derived <;> cases hfits
    | optional | list | map | unsupported => simp_all [fits]
    | _ => cases hfits

end RuleCheck.Value
