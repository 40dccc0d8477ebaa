import RuleCheck.Evaluator
import RuleCheck.Proofs.Category.Resolution
import RuleCheck.Visit.Record
import RuleCheck.Visit.Sequence

/-! # Writes keep categories

A value resolves to a category that it fits.  Whatever a visit can put in the place of a value (a scalar
of the kind in question, the same node with other things inside, a plain tuple for a tuple) resolves to
the same category, with the same annotations for what is inside.
-/

namespace RuleCheck.Value

/-! ## Values fit their categories -/

theorem fits_category {value : Value} (hnull : value.isNull = false) :
    value.fits value.category.category = true := by
  cases value with
  | null => simp [isNull] at hnull
  | scalar origin content =>
      cases origin <;> cases content <;> rfl
  | foreign content => cases content <;> rfl
  | member enumeration name content => rfl
  | sequence kind derived items => cases kind <;> cases derived <;> rfl
  | range start stop step => rfl
  | mapping kind derived entries => cases kind <;> cases derived <;> rfl
  | box content => rfl
  | record head slots => rfl

theorem category_eq_classify {value : Value} (hnull : value.isNull = false) :
    value.category = value.classOf.classify .none false := by
  cases value <;> first | rfl | cases hnull

theorem category_ne_optional {value : Value} (hnull : value.isNull = false) :
    value.category.category ≠ .optional := by
  rw [category_eq_classify hnull]
  exact Class.category_classify_ne_optional _ _ _

theorem settle_eq_or (value : Value) (declared : Resolved) :
    (value.settle declared = declared ∧ declared.category ≠ .unsupported ∧
        (value.isNull = true ∨ value.fits declared.category = true)) ∨
      (value.settle declared = value.category ∧
        (declared.category = .unsupported ∨
          (value.isNull = false ∧ value.fits declared.category = false))) := by
  unfold settle
  by_cases hunsupported : declared.category = .unsupported
  · exact .inr ⟨if_pos hunsupported, .inl hunsupported⟩
  · rw [if_neg hunsupported]
    by_cases hfits : (value.isNull || value.fits declared.category) = true
    · rw [if_pos hfits]
      exact .inl ⟨rfl, hunsupported, by simpa using hfits⟩
    · rw [if_neg hfits]
      exact .inr ⟨rfl, .inr (by simpa using hfits)⟩

theorem fits_resolve {value : Value} (declared : Annotation) (hnull : value.isNull = false) :
    value.fits (value.resolve declared).category = true := by
  cases resolve_action declared with
  | optional inner _ h => rw [h]; cases value <;> rfl
  | declares resolved _ _ h =>
      rw [h]
      rcases settle_eq_or value resolved with ⟨heq, -, hfits⟩ | ⟨heq, -⟩
      · rw [heq]
        simpa [hnull] using hfits
      · rw [heq]
        exact fits_category hnull

theorem list_of_resolve {value : Value} {declared : Annotation} (hnull : value.isNull = false)
    (hcategory : (value.resolve declared).category = .list) :
    (∃ kind derived items, value = .sequence kind derived items) ∨
      (∃ start stop step, value = .range start stop step) ∨
      ∃ head slots, value = .record head slots ∧ head.isTuple = true := by
  have hfits := fits_resolve declared hnull
  rw [hcategory] at hfits
  cases value with
  | sequence kind derived items => exact .inl ⟨kind, derived, items, rfl⟩
  | range start stop step => exact .inr (.inl ⟨start, stop, step, rfl⟩)
  | record head slots => exact .inr (.inr ⟨head, slots, rfl, hfits⟩)
  | _ => cases hfits

theorem mapping_of_resolve {value : Value} {declared : Annotation} (hnull : value.isNull = false)
    (hcategory : (value.resolve declared).category = .map) :
    ∃ kind derived entries, value = .mapping kind derived entries := by
  have hfits := fits_resolve declared hnull
  rw [hcategory] at hfits
  cases value with
  | mapping kind derived entries => exact ⟨kind, derived, entries, rfl⟩
  | _ => cases hfits

theorem box_of_resolve {value : Value} {declared : Annotation} (hnull : value.isNull = false)
    (hcategory : (value.resolve declared).category = .reference) : ∃ content, value = .box content := by
  have hfits := fits_resolve declared hnull
  rw [hcategory] at hfits
  cases value with
  | box content => exact ⟨content, rfl⟩
  | _ => cases hfits

theorem record_of_resolve {value : Value} {declared : Annotation} (hnull : value.isNull = false)
    (hcategory : (value.resolve declared).category = .record) :
    (∃ content, value = .box content) ∨ ∃ head slots, value = .record head slots := by
  have hfits := fits_resolve declared hnull
  rw [hcategory] at hfits
  cases value with
  | box content => exact .inl ⟨content, rfl⟩
  | record head slots => exact .inr ⟨head, slots, rfl⟩
  | null => cases hnull
  | scalar origin content =>
      rcases origin with _ | _ | _ <;> cases content <;> cases hfits
  | foreign content => cases content <;> cases hfits
  | member enumeration name content => cases hfits
  | sequence kind derived items => cases kind <;> cases derived <;> cases hfits
  | range start stop step => cases hfits
  | mapping kind derived entries => cases kind <;> cases derived <;> cases hfits

/-- What is declared of the things inside has no more parts than the annotation. -/
theorem bounded_resolve (value : Value) (declared : Annotation) :
    (value.resolve declared).Bounded declared.size := by
  have hone : 1 ≤ declared.size := declared.size_pos
  have hruntime : value.category.Bounded declared.size := by
    by_cases hnull : value.isNull = true
    · cases value <;> first | exact Resolved.bounded_ofCategory _ hone | cases hnull
    · rw [category_eq_classify (by simpa using hnull)]
      refine Class.bounded_classify _ _ ?_ hone
      simp [Arguments.none, Arguments.Bounded]
  cases resolve_action declared with
  | optional inner hsize h =>
      rw [h]
      exact Resolved.bounded_ofElement _ (Nat.le_of_lt hsize)
  | declares resolved _ hbound h =>
      rw [h]
      rcases settle_eq_or value resolved with ⟨heq, -⟩ | ⟨heq, -⟩
      · rw [heq]
        exact hbound
      · rw [heq]
        exact hruntime

/-- The annotation inside an optional layer has fewer parts, and no value gets around the layer. -/
theorem resolve_optional {value : Value} {declared : Annotation} (hnull : value.isNull = false)
    (hcategory : (value.resolve declared).category = .optional) :
    (value.resolve declared).element.size < declared.size ∧
      ∀ other : Value, other.resolve declared = value.resolve declared := by
  cases resolve_action declared with
  | optional inner hsize h =>
      rw [h] at hcategory ⊢
      exact ⟨hsize, h⟩
  | declares resolved hne _ h =>
      rw [h] at hcategory
      rcases settle_eq_or value resolved with ⟨heq, -⟩ | ⟨heq, -⟩
      · rw [heq] at hcategory
        exact absurd hcategory hne
      · rw [heq] at hcategory
        exact absurd hcategory (category_ne_optional hnull)

/-! ## Values of one sort resolve alike -/

/-- Two values that no annotation tells apart. -/
structure Alike (a b : Value) : Prop where
  isNull : a.isNull = b.isNull
  category : a.category = b.category
  fits : ∀ category, a.fits category = b.fits category

theorem Alike.resolve_eq {a b : Value} (h : Alike a b) (declared : Annotation) :
    a.resolve declared = b.resolve declared := by
  cases resolve_action declared with
  | optional inner _ hact => rw [hact, hact]
  | declares resolved _ _ hact =>
      rw [hact, hact]
      simp only [settle, h.isNull, h.category, h.fits]

theorem alike_scalar {a b : Scalar} (origin origin' : Origin) (h : a.base = b.base) :
    Alike (.scalar origin a) (.scalar origin' b) := by
  refine ⟨rfl, ?_, ?_⟩
  · cases origin <;> cases origin' <;>
      simp only [Value.category, classOf, Class.classify, Class.base?, h]
  · intro category
    cases a <;> cases b <;> first
      | cases h; done
      | cases category <;> cases origin <;> cases origin' <;> rfl

theorem alike_sequence (kind : SequenceKind) (derived derived' : Option String)
    (items items' : List Value) :
    Alike (.sequence kind derived items) (.sequence kind derived' items') := by
  refine ⟨rfl, ?_, fun category => ?_⟩
  · cases kind <;> cases derived <;> cases derived' <;> rfl
  · cases category <;> cases kind <;> cases derived <;> cases derived' <;> rfl

theorem alike_mapping (kind : MappingKind) (derived derived' : Option String)
    (entries entries' : List (Value × Value)) :
    Alike (.mapping kind derived entries) (.mapping kind derived' entries') := by
  refine ⟨rfl, ?_, fun category => ?_⟩
  · cases kind <;> cases derived <;> cases derived' <;> rfl
  · cases category <;> cases kind <;> cases derived <;> cases derived' <;> rfl

theorem alike_box (content content' : Value) : Alike (.box content) (.box content') :=
  ⟨rfl, rfl, fun category => by cases category <;> rfl⟩

theorem alike_record (head : RecordHead) (slots slots' : List (String × Value)) :
    Alike (.record head slots) (.record head slots') :=
  ⟨rfl, rfl, fun category => by cases category <;> rfl⟩

theorem Alike.refl (value : Value) : Alike value value :=
  ⟨rfl, rfl, fun _ => rfl⟩

/-! ## What visits put in place of a value -/

theorem alike_withItems (value : Value) (items : List Value) : Alike (value.withItems items) value := by
  cases value with
  | sequence kind derived old => exact alike_sequence kind derived derived items old
  | record head slots =>
      simp only [withItems]
      split
      · exact alike_record head _ slots
      · exact .refl _
  | _ => exact .refl _

theorem alike_withEntries (value : Value) (values : List Value) :
    Alike (value.withEntries values) value := by
  cases value with
  | mapping kind derived entries => exact alike_mapping kind derived derived _ entries
  | _ => exact .refl _

theorem alike_withField (value : Value) (name : String) (new : Value) :
    Alike (value.withField name new) value := by
  cases value with
  | box content => exact alike_box _ content
  | record head slots => exact alike_record head _ slots
  | _ => exact .refl _

/-- A plain tuple in place of a tuple that was taken for a sequence is taken for one as well. -/
theorem resolve_rebuilt {value : Value} {declared : Annotation} (items : List Value)
    (hrebuilt : value.isRebuilt = true) (hcategory : (value.resolve declared).category = .list) :
    (Value.sequence .tuple none items).resolve declared = value.resolve declared := by
  cases value with
  | sequence kind derived old =>
      cases kind with
      | tuple => exact (alike_sequence .tuple none derived items old).resolve_eq declared
      | _ => simp [isRebuilt] at hrebuilt
  | record head slots =>
      cases resolve_action declared with
      | optional inner _ h => rw [h, h]
      | declares resolved _ _ h =>
          rw [h] at hcategory
          rw [h, h]
          rcases settle_eq_or (.record head slots) resolved with ⟨heq, hne, -⟩ | ⟨heq, -⟩
          · rw [heq] at hcategory ⊢
            simp [settle, hcategory, fits, isNull]
          · rw [heq] at hcategory
            cases hcategory
  | _ => simp [isRebuilt] at hrebuilt

theorem scalar_of_resolve {value : Value} {declared : Annotation} {kind : ScalarKind}
    (hcategory : (value.resolve declared).category = kind.category) :
    value = .null ∨ ∃ origin content, value = .scalar origin content ∧
      (content.base = kind.base ∨ (kind = .float ∧ content.base = .int)) := by
  by_cases hnull : value.isNull = true
  · cases value <;> simp [isNull] at hnull
    exact .inl rfl
  · have hfits := fits_resolve declared (by simpa using hnull)
    rw [hcategory] at hfits
    cases value with
    | scalar origin content =>
        refine .inr ⟨origin, content, rfl, ?_⟩
        cases kind <;> cases content <;> simp_all [fits, ScalarKind.category, Scalar.base, ScalarKind.base]
    | _ => cases kind <;> simp_all [fits, ScalarKind.category, isNull]

theorem resolve_ofScalar {value : Value} {declared : Annotation} {kind : ScalarKind}
    {content : Scalar} (hcategory : (value.resolve declared).category = kind.category)
    (hbase : content.base = kind.base) :
    (Value.ofScalar content).resolve declared = value.resolve declared := by
  cases resolve_action declared with
  | optional inner _ h => rw [h, h]
  | declares resolved _ _ h =>
      rw [h] at hcategory
      rw [h, h]
      rcases settle_eq_or value resolved with ⟨heq, hne, -⟩ | ⟨heq, hdeclared⟩
      · rw [heq] at hcategory ⊢
        have hfits : (Value.ofScalar content).fits resolved.category = true := by
          rw [hcategory]
          cases kind <;> cases content <;> first | rfl | cases hbase
        simp [settle, hne, hfits]
      · rw [heq] at hcategory
        have hown : ∃ origin old, value = .scalar origin old ∧ old.base = content.base := by
          cases value with
          | scalar origin old =>
              refine ⟨origin, old, rfl, ?_⟩
              rw [hbase]
              cases origin <;> cases kind <;> cases old <;> first | rfl | cases hcategory
          | null => cases kind <;> cases hcategory
          | foreign old => cases kind <;> cases old <;> cases hcategory
          | member enumeration name old => cases kind <;> cases hcategory
          | sequence own derived old => cases kind <;> cases own <;> cases derived <;> cases hcategory
          | range start stop step => cases kind <;> cases hcategory
          | mapping own derived old => cases kind <;> cases own <;> cases derived <;> cases hcategory
          | box old => cases kind <;> cases hcategory
          | record head old => cases kind <;> cases hcategory
        obtain ⟨origin, old, rfl, hsame⟩ := hown
        have halike := alike_scalar origin .plain hsame
        simp only [ofScalar, settle, ← halike.isNull, ← halike.category, ← halike.fits]

end RuleCheck.Value
