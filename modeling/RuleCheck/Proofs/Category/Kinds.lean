import RuleCheck.Proofs.Category.Present

/-! # Categories that annotations change

Below its optional layers an annotation declares one category for all values.  It changes the category that a
value has by itself in four cases only: an integer may count as unsigned or as a fraction, a box as a record,
and a named tuple as a list.
-/

namespace RuleCheck

/--
The category that an annotation declares of the values that are there, below its optional layers, and
unsupported if it declares none.
-/
def Annotation.category (declared : Annotation) : Category :=
  if (Value.null.resolve declared).category = .optional then
    if _h : (Value.null.resolve declared).element.size < declared.size then
      category (Value.null.resolve declared).element
    else .unsupported
  else (Value.null.resolve declared).category
termination_by declared.size

namespace Value

/-- The category of a value that is there, in a place that a category is declared of. -/
def categoryAs (value : Value) (declared : Category) : Category :=
  match declared, value with
  | .uint, .scalar _ (.int _) => .uint
  | .float, .scalar _ (.int _) => .float
  | .record, .box _ => .record
  | .list, .record head _ => if head.isTuple then .list else .record
  | _, value => value.category.category

/-- A record is taken for a record, unless it is a named tuple that is declared as a list. -/
theorem categoryAs_record {head : RecordHead} {category : Category}
    (h : category = .list → head.isTuple = false) (slots : List (String × Value)) :
    (record head slots).categoryAs category = .record := by
  cases category with
  | list => simp [categoryAs, h rfl]
  | _ => rfl

theorem category_settle (value : Value) (declared : Resolved) :
    (value.settle declared).category = (value.settle (.ofCategory declared.category)).category := by
  have hcategory : (Resolved.ofCategory declared.category).category = declared.category := rfl
  unfold settle
  rw [hcategory]
  by_cases hunsupported : declared.category = .unsupported
  · rw [if_pos hunsupported, if_pos hunsupported]
  · rw [if_neg hunsupported, if_neg hunsupported]
    split <;> rfl

/-- A missing value that is optional has an optional layer around it, or nothing is declared of it. -/
theorem resolve_of_null_optional {declared : Annotation}
    (h : (null.resolve declared).category = .optional) :
    ((null.resolve declared).element.size < declared.size ∧
        ∀ value : Value, value.resolve declared = null.resolve declared) ∨
      ((null.resolve declared).element = .absent ∧
        ∀ value : Value, value.resolve declared = value.category) := by
  cases resolve_action declared with
  | optional inner hsize hact =>
      refine .inl ⟨?_, fun value => (hact value).trans (hact null).symm⟩
      rw [hact]
      exact hsize
  | declares resolved hne _ hact =>
      have hunsupported : resolved.category = .unsupported := by
        by_cases hunsupported : resolved.category = .unsupported
        · exact hunsupported
        · rw [hact, settle, if_neg hunsupported] at h
          exact absurd h hne
      have hown (value : Value) : value.resolve declared = value.category := by
        rw [hact, settle, if_pos hunsupported]
      refine .inr ⟨?_, hown⟩
      rw [hown]
      rfl

/-- A value that is there takes the category that is declared below the optional layers, if it fits it. -/
theorem category_resolvePresent_settle {value : Value} (hnull : value.isNull = false)
    (declared : Annotation) :
    declared.category ≠ .optional ∧ (value.resolvePresent declared).category =
      (value.settle (.ofCategory declared.category)).category := by
  have hown {declared : Annotation} (h : value.resolve declared = value.category) :
      value.resolvePresent declared = value.category := by
    rw [← h]
    apply resolvePresent_of_ne
    rw [h]
    exact category_ne_optional hnull
  fun_induction Annotation.category declared with
  | case1 declared hlayer hsize ih =>
      rcases resolve_of_null_optional hlayer with ⟨-, hsame⟩ | ⟨habsent, hnothing⟩
      · rw [resolvePresent, dif_pos ⟨hnull, by rw [hsame]; exact hlayer⟩, hsame value]
        exact ih
      · rw [habsent, hown rfl] at ih
        rw [hown (hnothing value), habsent]
        exact ih
  | case2 declared hlayer hsize =>
      rcases resolve_of_null_optional hlayer with ⟨hsmaller, -⟩ | ⟨-, hnothing⟩
      · exact absurd hsmaller hsize
      · rw [hown (hnothing value), settle_unsupported]
        exact ⟨by simp, rfl⟩
  | case3 declared hlayer =>
      refine ⟨hlayer, ?_⟩
      cases resolve_action declared with
      | optional inner _ hact =>
          rw [hact] at hlayer
          exact absurd rfl hlayer
      | declares resolved hne _ hact =>
          have hdeclared : null.resolve declared = resolved := by
            rw [hact] at hlayer ⊢
            unfold settle at hlayer ⊢
            split
            · rename_i hunsupported
              rw [if_pos hunsupported] at hlayer
              exact absurd rfl hlayer
            · rfl
          have hvalue : (value.resolve declared).category ≠ .optional := by
            rw [hact]
            rcases settle_eq_or value resolved with ⟨heq, -⟩ | ⟨heq, -⟩
            · rw [heq]
              exact hne
            · rw [heq]
              exact category_ne_optional hnull
          rw [resolvePresent_of_ne hvalue, hact, category_settle, hdeclared]

theorem category_settle_ofCategory {value : Value} (hnull : value.isNull = false) {category : Category}
    (hcategory : category ≠ .optional) :
    (value.settle (.ofCategory category)).category = value.categoryAs category := by
  cases value with
  | null => cases hnull
  | scalar origin content =>
      cases category <;> cases content <;> cases origin <;> first | rfl | exact absurd rfl hcategory
  | foreign content => cases category <;> cases content <;> first | rfl | exact absurd rfl hcategory
  | member enumeration name content => cases category <;> first | rfl | exact absurd rfl hcategory
  | sequence kind derived items =>
      cases category <;> cases kind <;> cases derived <;> first | rfl | exact absurd rfl hcategory
  | range start stop step => cases category <;> first | rfl | exact absurd rfl hcategory
  | mapping kind derived entries =>
      cases category <;> cases kind <;> cases derived <;> first | rfl | exact absurd rfl hcategory
  | box content => cases category <;> first | rfl | exact absurd rfl hcategory
  | record head slots =>
      cases category with
      | list =>
          cases htuple : head.isTuple <;>
            simp [settle, Resolved.ofCategory, isNull, fits, categoryAs, htuple, Value.category, classOf,
              Class.classify]
      | optional => exact absurd rfl hcategory
      | _ => rfl

theorem category_resolvePresent_eq {value : Value} (hnull : value.isNull = false) (declared : Annotation) :
    (value.resolvePresent declared).category = value.categoryAs declared.category := by
  obtain ⟨hdeclared, hsettle⟩ := category_resolvePresent_settle hnull declared
  rw [hsettle, category_settle_ofCategory hnull hdeclared]

end Value

end RuleCheck
