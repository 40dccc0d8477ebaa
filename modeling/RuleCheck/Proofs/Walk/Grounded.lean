import RuleCheck.Proofs.Category.Layers
import RuleCheck.Proofs.Value.Rank
import RuleCheck.Proofs.Walk.Dispatches
import RuleCheck.Proofs.Walk.Levels

/-! # Walks that come to an end

An evaluator can be registered for a category that it is not made for.  As long as the evaluator of optional
values serves no category that a value has by itself, and the evaluator of sequences does not serve texts,
every visit goes on to a smaller value, or to the same value with a smaller annotation.  So a number of
levels that is known in advance is enough.  With any other registry there is a value that a walk never gets
done with.
-/

namespace RuleCheck

/--
Whether the evaluator of optional values serves optional values only, and the evaluator of sequences does not
serve texts.  Unsigned integers may be taken for optional values: no value is one by itself.
-/
structure Registry.Grounded (registry : Registry) : Prop where
  optional : ∀ category, registry.get? category = some .optional →
    category = .optional ∨ category = .uint
  sequence : registry.get? .text ≠ some .sequence

namespace Walk

variable {walk : Walk}

/-! ## Every visit goes on to something smaller -/

/-- A smaller value, or the same value with a smaller annotation. -/
def Descends (next place : Place) : Prop :=
  next.value.rank < place.value.rank ∨
    (next.value = place.value ∧ next.declared.size < place.declared.size)

/--
How the second place follows on the first, if annotations of fields have at most so many parts: with a value
of fewer levels, with one of less spread or with the same, and of the last two no more is declared.
-/
inductive Follows (parts : Nat) (place next : Place) : Prop
  | deeper (hdepth : next.value.depth < place.value.depth) (hsize : next.declared.size ≤ parts)
  | flatter (hbelow : next.value.Below place.value)
      (hsize : next.declared.size ≤ place.declared.size)
  | same (hvalue : next.value = place.value) (hsize : next.declared.size < place.declared.size)

theorem Follows.descends {parts : Nat} {place next : Place} (h : Follows parts place next) :
    Descends next place := by
  cases h with
  | deeper hdepth _ => exact .inl (Value.rank_lt_of_depth hdepth)
  | flatter hbelow _ => exact .inl hbelow.rank_lt
  | same hvalue hsize => exact .inr ⟨hvalue, hsize⟩

theorem Follows.size_le {parts : Nat} {place next : Place} (h : Follows parts place next)
    (hplace : place.declared.size ≤ parts) : next.declared.size ≤ parts := by
  cases h with
  | deeper _ hsize => exact hsize
  | flatter _ hsize => exact Nat.le_trans hsize hplace
  | same _ hsize => exact Nat.le_trans (Nat.le_of_lt hsize) hplace

section

variable (hground : ∀ category, walk.evaluator? category = some .optional →
  category = .optional ∨ category = .uint) (htext : walk.evaluator? .text ≠ some .sequence)
  (hassign : walk.AssignsNothing) {parts : Nat} (hfields : walk.FieldsBounded parts)

include hground htext hassign hfields

theorem Dispatches.follows {levels : Nat} {place next : Place}
    (h : walk.Dispatches levels place next) : Follows parts place next := by
  have hbound := Value.bounded_resolve place.value place.declared
  have hone := place.declared.size_pos
  cases h with
  | present hserved hnull =>
      refine .same rfl ?_
      rcases hground _ hserved with hcategory | hcategory
      · obtain ⟨inner, hsize, hresolved⟩ := Value.exists_of_resolve_optional hnull hcategory
        simp only [Place.resolved, hresolved]
        exact hsize
      · exact Value.resolve_uint hcategory
  | @content content hserved hvalue hnull =>
      refine .flatter (.inl ?_) hbound.element
      simp [hvalue, Value.depth]
  | @item remaining items index item hserved hremaining hitems hitem hbefore =>
      have hsize : (place.resolved.item index).size ≤ place.declared.size := hbound.item hone index
      rcases Value.item_below hitems (List.mem_of_getElem? hitem) with
        hbelow | ⟨hsame, origin, s, hvalue⟩
      · exact .flatter hbelow hsize
      · -- A letter is its own only item; so it must have been taken for an optional value.
        have hoptional : place.resolved.category = .optional := by
          have hcategory := Value.resolve_text origin s place.declared
          rw [← hvalue] at hcategory
          rcases hcategory with htaken | hoptional
          · rw [show place.resolved.category = .text from htaken] at hserved
            exact absurd hserved htext
          · exact hoptional
        have hnull : place.value.isNull = false := by
          rw [hvalue]
          rfl
        obtain ⟨inner, hinner, hresolved⟩ := Value.exists_of_resolve_optional hnull hoptional
        refine .same hsame ?_
        simpa [Place.resolved, hresolved, Resolved.item, Resolved.ofElement] using hinner
  | @entry remaining kind derived entries index key item hserved hremaining hvalue hentry hbefore =>
      refine .flatter ?_ hbound.element
      rw [hvalue]
      exact (Value.key_below (List.mem_of_getElem? hentry)).2
  | @field view before rest field rules content hserved hview hplan hbefore hcontent =>
      have hmem : .descend field rules ∈ RecordStep.all walk.tokenize view.fields place.rules := by
        rw [hplan]
        simp
      have hdepth := steps_depth_le (visit_noDeeper hassign levels) hbefore
      exact .deeper (Nat.lt_of_lt_of_le (Value.depth_lt_of_field hcontent) hdepth)
        (hfields _ _ hview _ (RecordStep.of_descend_mem_all hmem).1)

end

/-! ## Levels -/

/-- The number of levels that a place needs, whatever evaluators serve the categories. -/
def levelsOf (parts : Nat) (place : Place) : Nat :=
  (place.value.depth - 1) * (parts + 1) + place.declared.size + place.value.spread

theorem Follows.levelsOf_lt {parts : Nat} {place next : Place} (h : Follows parts place next)
    (hplace : place.declared.size ≤ parts) : levelsOf parts next < levelsOf parts place := by
  have hsize := h.size_le hplace
  have hspread := next.value.spread_le
  have hone := place.declared.size_pos
  have hpos := next.value.depth_pos
  have hdeeper (hdepth : next.value.depth < place.value.depth) :
      levelsOf parts next < levelsOf parts place := by
    have hown : 0 < place.value.spread := Value.spread_pos_of_depth (by omega)
    have hstep : (next.value.depth - 1) * (parts + 1) + (parts + 1) ≤
        (place.value.depth - 1) * (parts + 1) := by
      have hle : next.value.depth - 1 + 1 ≤ place.value.depth - 1 := by omega
      have := Nat.mul_le_mul_right (parts + 1) hle
      rwa [Nat.add_mul, Nat.one_mul] at this
    unfold levelsOf
    omega
  cases h with
  | deeper hdepth _ => exact hdeeper hdepth
  | flatter hbelow hle =>
      rcases hbelow with hdepth | ⟨hdepth, hless⟩
      · exact hdeeper hdepth
      · unfold levelsOf
        rw [hdepth]
        omega
  | same hvalue hless =>
      unfold levelsOf
      rw [hvalue]
      omega

theorem levelsOf_pos (parts : Nat) (place : Place) : 0 < levelsOf parts place := by
  have := place.declared.size_pos
  unfold levelsOf
  omega

theorem visitAt_ne_tooDeep (hground : ∀ category, walk.evaluator? category = some .optional →
      category = .optional ∨ category = .uint) (htext : walk.evaluator? .text ≠ some .sequence)
    (hassign : walk.AssignsNothing) {parts levels : Nat} (hfields : walk.FieldsBounded parts)
    {place : Place} (hplace : place.declared.size ≤ parts) (hlevels : levelsOf parts place ≤ levels) :
    (walk.visitAt levels place).stop ≠ some (.fault .tooDeep) := by
  induction levels generalizing place with
  | zero =>
      have := levelsOf_pos parts place
      omega
  | succ levels ih =>
      intro hdeep
      obtain ⟨next, hcalled, hnext⟩ := leadsTooDeep hdeep
      have hfollows := hcalled.follows hground htext hassign hfields
      have hlt := hfollows.levelsOf_lt hplace
      exact ih (hfollows.size_le hplace) (by omega) hnext

/-! ## Walks without an end -/

/-- A value that is of a category by itself, if there are such values. -/
def sample : Category → Value
  | .optional => .null
  | .reference => .box .null
  | .text => .ofText "a"
  | .int | .uint => .ofInt 0
  | .float => .ofScalar (ScalarKind.float.zero)
  | .bool => .ofScalar (ScalarKind.bool.zero)
  | .duration => .ofScalar (ScalarKind.duration.zero)
  | .timestamp => .ofScalar (ScalarKind.timestamp.zero)
  | .record => .record ⟨"", .data, false⟩ []
  | .list => .sequence .list none []
  | .map => .mapping .dict none []
  | .unsupported => .foreign (.bytes [])

def plainPlace (value : Value) : Place :=
  ⟨false, .absent, value, .empty⟩

/-- A visit that takes a value of which nothing is declared for an optional one goes on to itself. -/
theorem tooDeep_of_taken_optional {value : Value}
    (hserved : walk.evaluator? (value.resolve .absent).category = some .optional)
    (hnull : value.isNull = false) (helement : (value.resolve .absent).element = .absent)
    (levels : Nat) :
    walk.Dispatches levels (plainPlace value) (plainPlace value) ∧
      (walk.visitAt levels (plainPlace value)).stop = some (.fault .tooDeep) := by
  constructor
  · have hcall : walk.Dispatches levels (plainPlace value)
        { plainPlace value with declared := (plainPlace value).resolved.element } :=
      .present hserved hnull
    simpa only [plainPlace, Place.resolved, helement] using hcall
  · induction levels with
    | zero => rfl
    | succ levels ih =>
        have hnext : walk.visitAt (levels + 1) (plainPlace value) =
            walk.visitAt levels (plainPlace value) := by
          simp [visitAt, visit, plainPlace, hserved, evaluate, Visit.optional, hnull, helement]
        rw [hnext]
        exact ih

theorem resolve_sample {category : Category} (hoptional : category ≠ .optional)
    (huint : category ≠ .uint) :
    ((sample category).resolve .absent).category = category ∧ (sample category).isNull = false ∧
      ((sample category).resolve .absent).element = .absent := by
  cases category <;> first | exact ⟨rfl, rfl, rfl⟩ | exact absurd rfl hoptional | exact absurd rfl huint

/-- A visit that takes a letter for a sequence goes on to its only item, the letter. -/
theorem tooDeep_of_letter (hserved : walk.evaluator? .text = some .sequence) (levels : Nat) :
    (walk.visitAt levels (plainPlace (sample .text))).stop = some (.fault .tooDeep) := by
  induction levels with
  | zero => rfl
  | succ levels ih =>
      have hcategory : ((sample .text).resolve .absent).category = .text := rfl
      have hitems : (sample .text).items? = some [sample .text] := by
        have hletters : "a".toList = ['a'] := by decide
        simp [sample, Value.ofText, Value.items?, hletters]
      have hvisit : walk.visitAt (levels + 1) (plainPlace (sample .text)) =
          Visit.ofItems (sample .text) (Visits.ofItems
            (fun _ item => walk.visitAt levels (plainPlace item)) 0 [sample .text]) := by
        simp only [visitAt, visit, plainPlace, hcategory, hserved, evaluate]
        unfold Visit.sequence
        simp only [hitems]
        rfl
      rw [hvisit, Visit.ofItems_stop]
      simp only [Visits.ofItems, ih, Visits.halted, Stop.under]

theorem exists_endless {registry : Registry} (h : ¬ registry.Grounded) :
    ∃ category, ∀ walk : Walk, walk.evaluator? = registry.get? → ∀ levels,
      (walk.visitAt levels (plainPlace (sample category))).stop = some (.fault .tooDeep) := by
  by_cases htext : registry.get? .text = some .sequence
  · refine ⟨.text, fun walk hwalk => tooDeep_of_letter ?_⟩
    rw [hwalk, htext]
  · have hexists : ∃ category, registry.get? category = some .optional ∧ category ≠ .optional ∧
        category ≠ .uint := by
      refine Classical.byContradiction fun hnone => h ⟨fun category hserved => ?_, htext⟩
      refine Classical.byContradiction fun hother => ?_
      rw [not_or] at hother
      exact hnone ⟨category, hserved, hother⟩
    obtain ⟨category, hserved, hoptional, huint⟩ := hexists
    obtain ⟨hcategory, hnull, helement⟩ := resolve_sample hoptional huint
    refine ⟨category, fun walk hwalk levels => (tooDeep_of_taken_optional ?_ hnull helement levels).2⟩
    rw [hcategory, hwalk, hserved]

end Walk

end RuleCheck
