import RuleCheck.Proofs.Category.Stable
import RuleCheck.Proofs.Visit.Settling
import RuleCheck.Walk

/-! # Scalars are visited again as what they were

A visit to a scalar puts a folded text or a default that was read in its place, always a plain scalar of the kind.
The annotation of the place may fit the old value or not, and the old value may be missing or belong to a class of
its own: the new one is still taken for the same category, and whatever visits the place next is the same evaluator.
-/

namespace RuleCheck

namespace ScalarKind

inductive Stored : ScalarKind → Value → Prop
  | folded (rules : RuleSet) (text : String) : Stored .text (.ofText (rules.foldText text))
  | default {kind : ScalarKind} {literal : String} {content : Scalar}
      (h : kind.read literal = .ok content) : Stored kind (.ofScalar content)

theorem Stored.exists_scalar {kind : ScalarKind} {value : Value} (h : kind.Stored value) :
    ∃ content, value = .ofScalar content ∧ content.base = kind.base := by
  cases h with
  | folded rules text => exact ⟨.text (rules.foldText text), rfl, rfl⟩
  | default hread => exact ⟨_, rfl, base_of_read hread⟩

/-- The zero that a missing value counts as is never written. -/
theorem Settling.stored {kind : ScalarKind} {rules : RuleSet} {held : Value} {settled : Settled}
    {folded default : Option Value} (h : kind.Settling rules held settled folded default)
    (hchanged : settled.changed = true) : kind.Stored settled.value := by
  have hvalue := h.value_eq
  cases hdefault : default with
  | some new =>
      have hread := default?_eq_ok h.defaulting new hdefault
      rw [hdefault, Option.getD_some] at hvalue
      obtain ⟨literal, content, -, -, hliteral, rfl, -⟩ := hread
      rw [hvalue]
      exact .default hliteral
  | none =>
      rw [hdefault, Option.getD_none] at hvalue
      rcases folded?_eq_ok h.folding with ⟨rfl, -⟩ | ⟨origin, text, rfl, -, rfl⟩
      · rw [Option.getD_none] at hvalue
        by_cases hnull : held.isNull = true
        · have hzero := h.changed_of_null hnull
          rw [hvalue, start, if_pos hnull, isZero_zero, hchanged] at hzero
          cases hzero
        · have hsame := h.changed_of_present (by simpa using hnull)
          rw [hdefault, hchanged] at hsame
          cases hsame
      · rw [hvalue, Option.getD_some]
        exact .folded rules text

/-- A visit leaves a scalar alone or puts a folded text or a default in its place, also if it is stopped. -/
theorem visit_value (kind : ScalarKind) (writable : Bool) (held : Value) (rules : RuleSet) :
    (kind.visit writable held rules).value = held ∨
      kind.Stored (kind.visit writable held rules).value := by
  unfold visit
  cases hsettle : kind.settle rules held with
  | error stop => exact .inl rfl
  | ok settled =>
      by_cases hchanged : settled.changed = true
      · by_cases hwritable : writable = true
        · obtain ⟨folded, default, hsettling⟩ := settle_eq_ok hsettle
          simp only [hchanged, hwritable, if_true]
          exact .inr (hsettling.stored hchanged)
        · left
          simp only [hchanged, hwritable, if_true]
          rfl
      · left
        simp only [hchanged]
        rfl

/-- What visits of one kind leave in a place, one after another, each with rules of its own. -/
inductive Leaves (kind : ScalarKind) (held : Value) : Value → Prop
  | unvisited : Leaves kind held held
  | visit {value : Value} (h : Leaves kind held value) (writable : Bool) (rules : RuleSet) :
      Leaves kind held (kind.visit writable value rules).value

theorem Leaves.eq_or_stored {kind : ScalarKind} {held value : Value} (h : kind.Leaves held value) :
    value = held ∨ kind.Stored value := by
  induction h with
  | unvisited => exact .inl rfl
  | @visit value h writable rules ih =>
      rcases kind.visit_value writable value rules with hsame | hstored
      · rw [hsame]
        exact ih
      · exact .inr hstored

end ScalarKind

/--
What visits to a scalar leave behind is resolved as the scalar was, and the next visit is one of the same evaluator
with the same annotations.
-/
structure Value.StaysScalar (held : Value) (declared : Annotation) (kind : ScalarKind) : Prop where
  stored : ∀ value, kind.Stored value → value.resolve declared = held.resolve declared
  left : ∀ value, kind.Leaves held value → value = held ∨ kind.Stored value
  again : ∀ value, kind.Leaves held value → ∀ (walk : Walk) (evaluator : Evaluator),
    walk.evaluator? (held.resolve declared).category = some evaluator → ∀ levels writable rules,
      walk.visit (levels + 1) writable declared value rules =
        walk.evaluate (walk.visit levels) evaluator writable (held.resolve declared) value rules

theorem Value.staysScalar {held : Value} {declared : Annotation} {kind : ScalarKind}
    (hcategory : (held.resolve declared).category = kind.category) :
    held.StaysScalar declared kind := by
  have hstored : ∀ value, kind.Stored value → value.resolve declared = held.resolve declared := by
    intro value hvalue
    obtain ⟨content, rfl, hbase⟩ := hvalue.exists_scalar
    exact resolve_ofScalar hcategory hbase
  constructor
  · exact hstored
  · exact fun value hvalue => hvalue.eq_or_stored
  · intro value hvalue walk evaluator hevaluator levels writable rules
    have hsame : value.resolve declared = held.resolve declared := by
      rcases hvalue.eq_or_stored with rfl | hplain
      · rfl
      · exact hstored value hplain
    simp only [Walk.visit, hsame, hevaluator]

/-- A member of an enumeration that stands where a text is declared is taken for an integer, before and after. -/
theorem Value.staysScalar_member :
    ((Value.scalar (.member "Level" "low") (.int 0)).resolve (.bare (.builtIn .text))).category =
        ScalarKind.int.category ∧
      (Value.scalar (.member "Level" "low") (.int 0)).StaysScalar (.bare (.builtIn .text)) .int :=
  have hcategory : ((Value.scalar (.member "Level" "low") (.int 0)).resolve
      (.bare (.builtIn .text))).category = ScalarKind.int.category := rfl
  ⟨hcategory, staysScalar hcategory⟩

end RuleCheck
