import RuleCheck.Proofs.Category.Stable

/-! # Layers around an annotation

The search for a category takes off one layer of an annotation after the other, and comes to an end.  What is
found decides which values can come to be served as optional ones, as unsigned integers or as texts.
-/

namespace RuleCheck

namespace Annotation

/-- One turn of the search: a layer is taken off, if there is one, and noted if it says `unsigned`. -/
def peel? : Bool × Annotation → Option (Bool × Annotation)
  | (unsigned, .annotated inner markers) => some (unsigned || markers.contains .unsigned, inner)
  | (unsigned, .newType _ inner) => some (unsigned, inner)
  | _ => none

/-- What is left after at most so many turns, if no further turn is possible then. -/
def peel : Nat → Bool × Annotation → Option (Bool × Annotation)
  | turns, layered =>
    match peel? layered, turns with
    | none, _ => some layered
    | some _, 0 => none
    | some next, turns + 1 => peel turns next

/-- A turn leaves a smaller annotation, which resolves every value to the same. -/
theorem peel?_eq_some {unsigned noted : Bool} {declared inner : Annotation}
    (h : peel? (unsigned, declared) = some (noted, inner)) :
    inner.size < declared.size ∧
      ∀ value : Value, value.resolveAs unsigned declared = value.resolveAs noted inner := by
  cases declared <;> simp only [peel?, Option.some.injEq, Prod.mk.injEq, reduceCtorEq] at h
  all_goals
    obtain ⟨rfl, rfl⟩ := h
    exact ⟨Nat.lt_succ_self _, fun _ => rfl⟩

/-- The search ends after fewer turns than an annotation has parts, and finds what the annotation says. -/
theorem peel_ends (unsigned : Bool) (declared : Annotation) {turns : Nat}
    (hturns : declared.size ≤ turns + 1) :
    ∃ noted last, peel turns (unsigned, declared) = some (noted, last) ∧
      peel? (noted, last) = none ∧
      ∀ value : Value, value.resolveAs unsigned declared = value.resolveAs noted last := by
  induction turns generalizing unsigned declared with
  | zero =>
      cases hpeel : peel? (unsigned, declared) with
      | none => exact ⟨unsigned, declared, by simp [peel, hpeel], hpeel, fun _ => rfl⟩
      | some next =>
          have := (peel?_eq_some hpeel).1
          have := next.2.size_pos
          omega
  | succ turns ih =>
      cases hpeel : peel? (unsigned, declared) with
      | none => exact ⟨unsigned, declared, by simp [peel, hpeel], hpeel, fun _ => rfl⟩
      | some next =>
          obtain ⟨hsize, hresolve⟩ := peel?_eq_some hpeel
          obtain ⟨noted, last, hrest, hend, hsame⟩ := ih next.1 next.2 (by omega)
          refine ⟨noted, last, ?_, hend, fun value => (hresolve value).trans (hsame value)⟩
          simpa [peel, hpeel] using hrest

end Annotation

namespace Class

/-- Integers are unsigned only if an annotation says so, and nothing is declared of their insides. -/
theorem classify_uint {base : Class} {arguments : Arguments} {unsigned : Bool}
    (h : (base.classify arguments unsigned).category = .uint) :
    unsigned = true ∧ (base.classify arguments unsigned).element = .absent := by
  have hbuiltIn : ∀ own : BuiltIn, (classifyBuiltIn own arguments unsigned).category = .uint →
      unsigned = true ∧ (classifyBuiltIn own arguments unsigned).element = .absent := by
    intro own hown
    cases own <;> simp only [classifyBuiltIn, Resolved.ofCategory, Resolved.ofElement, reduceCtorEq]
      at hown ⊢
    case int => cases unsigned <;> simp_all
    case tuple => split at hown <;> cases hown
  unfold classify at h ⊢
  split at h
  · cases h
  · split at h
    · exact hbuiltIn _ h
    · cases h

end Class

namespace Value

theorem category_ne_uint (value : Value) : value.category.category ≠ .uint := by
  intro h
  cases hnull : value.isNull with
  | true => cases value <;> cases hnull; cases h
  | false =>
      rw [category_eq_classify hnull] at h
      cases (Class.classify_uint h).1

theorem exists_of_resolve_optional {value : Value} {declared : Annotation} (hnull : value.isNull = false)
    (hcategory : (value.resolve declared).category = .optional) :
    ∃ inner, inner.size < declared.size ∧ value.resolve declared = .ofElement .optional inner := by
  cases resolve_action declared with
  | optional inner hsize h => exact ⟨inner, hsize, h value⟩
  | declares resolved hne _ h =>
      rw [h] at hcategory
      rcases settle_eq_or value resolved with ⟨heq, -⟩ | ⟨heq, -⟩
      · rw [heq] at hcategory
        exact absurd hcategory hne
      · rw [heq] at hcategory
        exact absurd hcategory (category_ne_optional hnull)

/-- A text is a text, whatever is declared of it, if it is not taken for an optional value. -/
theorem resolve_text (origin : Origin) (s : String) (declared : Annotation) :
    ((scalar origin (.text s)).resolve declared).category = .text ∨
      ((scalar origin (.text s)).resolve declared).category = .optional := by
  have hown : (scalar origin (.text s)).category.category = .text := by
    cases origin <;> rfl
  cases resolve_action declared with
  | optional inner _ h =>
      rw [h]
      exact .inr rfl
  | declares resolved _ _ h =>
      rw [h]
      rcases settle_eq_or (scalar origin (.text s)) resolved with ⟨heq, hne, hfits⟩ | ⟨heq, -⟩
      · rw [heq]
        revert hne hfits
        cases resolved.category <;> simp [fits, isNull]
        cases origin <;> rfl
      · rw [heq]
        exact .inl hown

/-- What an annotation settles as an unsigned integer has nothing declared of its insides. -/
theorem settle_uint {value : Value} {base : Class} {arguments : Arguments} {unsigned : Bool}
    (h : (value.settle (base.classify arguments unsigned)).category = .uint) :
    unsigned = true ∧ (value.settle (base.classify arguments unsigned)).element = .absent := by
  rcases settle_eq_or value (base.classify arguments unsigned) with ⟨heq, -⟩ | ⟨heq, -⟩
  · rw [heq] at h ⊢
    exact Class.classify_uint h
  · rw [heq] at h
    exact absurd h value.category_ne_uint

theorem resolveAs_uint {value : Value} {unsigned : Bool} (declared : Annotation)
    (h : (value.resolveAs unsigned declared).category = .uint) :
    (value.resolveAs unsigned declared).element = .absent ∧ (unsigned = true ∨ 1 < declared.size) := by
  match declared with
  | .absent | .any | .forward _ | .variable _ | .literal _ => exact absurd h value.category_ne_uint
  | .annotated inner markers =>
      have := inner.size_pos
      refine ⟨(resolveAs_uint inner h).1, .inr ?_⟩
      simp only [ Annotation.size]
      omega
  | .newType name inner =>
      have := inner.size_pos
      refine ⟨(resolveAs_uint inner h).1, .inr ?_⟩
      simp only [ Annotation.size]
      omega
  | .union members =>
      simp only [resolveAs] at h
      split at h
      · exact absurd h value.category_ne_uint
      · cases h
  | .bare base | .applied base arguments | .tupleOf item =>
      have hsettled := settle_uint h
      exact ⟨hsettled.2, .inl hsettled.1⟩

/-- An unsigned integer is declared so by an outer layer, and nothing is declared of its insides. -/
theorem resolve_uint {value : Value} {declared : Annotation}
    (h : (value.resolve declared).category = .uint) :
    (value.resolve declared).element.size < declared.size := by
  obtain ⟨helement, hunsigned | hsize⟩ := resolveAs_uint declared h
  · cases hunsigned
  · rw [show (value.resolve declared).element = .absent from helement]
    exact hsize

end Value

end RuleCheck
