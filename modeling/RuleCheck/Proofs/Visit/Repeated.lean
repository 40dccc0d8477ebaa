import RuleCheck.Proofs.Text.Folding
import RuleCheck.Proofs.Visit.Escaping
import RuleCheck.Proofs.Visit.Settling

/-! # Scalars that are visited again

What settling leaves is settled: a second visit with the same rules folds the same text to itself and finds
nothing to take a default for.  Only a default that its own rules would fold could be changed again.
-/

namespace RuleCheck.ScalarKind

def DefaultFolded (kind : ScalarKind) (rules : RuleSet) : Prop :=
  kind = .text → ∀ literal, rules.default? = some literal → rules.foldText literal = literal

variable {kind : ScalarKind} {rules : RuleSet} {held : Value} {settled : Settled}
  {folded default : Option Value}

/-- What is to be written is the default, or the text that the rules made of the one that was held. -/
theorem Settling.source (h : kind.Settling rules held settled folded default)
    (hchanged : settled.changed = true) :
    (∃ literal content, rules.default? = some literal ∧ kind.read literal = .ok content ∧
        settled.value = .ofScalar content) ∨
      (kind.default? rules settled.value = .ok none ∧
        ∃ s, kind = .text ∧ settled.value = .ofText (rules.foldText s)) := by
  have hvalue := h.value_eq
  have hdefaulting := h.defaulting
  cases hnew : default with
  | some new =>
      obtain ⟨literal, content, hliteral, -, hread, rfl, -⟩ := default?_eq_ok hdefaulting new hnew
      rw [hnew, Option.getD_some] at hvalue
      exact .inl ⟨literal, content, hliteral, hread, hvalue⟩
  | none =>
      rw [hnew, Option.getD_none] at hvalue
      rw [hnew, ← hvalue] at hdefaulting
      rcases folded?_eq_ok h.folding with ⟨rfl, -⟩ | ⟨origin, s, rfl, -, rfl⟩
      · -- without a default or a fold nothing has changed
        cases hnull : held.isNull with
        | true =>
            have hzero := h.changed_of_null hnull
            rw [hvalue, hchanged] at hzero
            simp [start, hnull, isZero_zero] at hzero
        | false =>
            rw [h.changed_of_present hnull, hnew] at hchanged
            simp at hchanged
      · exact .inr ⟨hdefaulting, s, rfl, hvalue⟩

theorem default?_of_default {literal : String} {content : Scalar}
    (hliteral : rules.default? = some literal) (hread : kind.read literal = .ok content) :
    kind.default? rules (.ofScalar content) = .ok none := by
  obtain ⟨zero, hzero⟩ := isZero_of_suits (suits_ofScalar (base_of_read hread))
  have hcontent : kind.readOrStop literal (RuleSet.defaultFront ++ literal) = .ok content :=
    readOrStop_eq_ok.2 hread
  cases zero with
  | false =>
      simp [default?, hliteral, hzero, orFault, bind, Except.bind, pure, Except.pure]
  | true =>
      have hself : (Value.ofScalar content).same (.ofScalar content) = true := by
        simpa [Value.ofScalar, Value.same, Value.scalar?] using same_self_of_isZero hzero
      simp [default?, hliteral, hzero, orFault, hcontent, hself, bind, Except.bind, pure,
        Except.pure]

theorem folded?_of_not_text (hkind : kind ≠ .text) (value : Value) :
    kind.folded? rules value = .ok none := by
  cases kind <;> first | rfl | exact absurd rfl hkind

theorem folded?_of_text {s : String} (h : rules.foldText s = s) :
    text.folded? rules (.ofText s) = .ok none ∨
      text.folded? rules (.ofText s) = .ok (some (.ofText s)) := by
  cases hoperation : rules.foldOperation? with
  | none => exact .inl (by simp [folded?, hoperation])
  | some operation => exact .inr (by simp [folded?, hoperation, Value.ofText, h])

/-- A value that neither a fold nor a default changes settles to itself. -/
theorem settle_eq_self {content : Scalar} (hfolded : kind.folded? rules (.ofScalar content) = .ok none ∨
      (kind.folded? rules (.ofScalar content) = .ok (some (.ofScalar content)) ∧
        content.same content = true))
    (hdefault : kind.default? rules (.ofScalar content) = .ok none) :
    kind.settle rules (.ofScalar content) = .ok ⟨.ofScalar content, false⟩ := by
  have hpresent : (Value.ofScalar content).isNull = false := rfl
  rcases hfolded with hfolded | ⟨hfolded, hself⟩
  · simp [settle, hpresent, hfolded, hdefault, orFault, bind, Except.bind, pure, Except.pure]
  · have hsame : (Value.ofScalar content).same (.ofScalar content) = true := by
      simpa [Value.ofScalar, Value.same, Value.scalar?] using hself
    simp [settle, hpresent, hfolded, hdefault, orFault, hsame, bind, Except.bind, pure, Except.pure]

theorem settle_again (hsettle : kind.settle rules held = .ok settled)
    (hchanged : settled.changed = true) (hfolds : kind.DefaultFolded rules) :
    kind.settle rules settled.value = .ok ⟨settled.value, false⟩ := by
  have htext (s : String) : (Scalar.text s).same (.text s) = true := by
    simp [Scalar.same, Scalar.order?, Order.ofTexts]
  obtain ⟨folded, default, h⟩ := settle_eq_ok hsettle
  rcases h.source hchanged with ⟨literal, content, hliteral, hread, hvalue⟩ | ⟨hdefault, s, rfl, hvalue⟩
  · rw [hvalue]
    refine settle_eq_self ?_ (default?_of_default hliteral hread)
    by_cases hkind : kind = .text
    · subst hkind
      cases hread
      exact (folded?_of_text (hfolds rfl literal hliteral)).imp id fun hsame =>
        ⟨hsame, htext literal⟩
    · exact .inl (folded?_of_not_text hkind _)
  · rw [hvalue] at hdefault ⊢
    exact settle_eq_self ((folded?_of_text (rules.foldText_foldText s)).imp id fun hsame =>
      ⟨hsame, htext _⟩) hdefault

theorem visit_again {writable : Bool} (hfolds : kind.DefaultFolded rules)
    (hpass : (kind.visit writable held rules).stop = none) :
    kind.visit writable (kind.visit writable held rules).value rules =
      .pass (kind.visit writable held rules).value := by
  obtain ⟨settled, hsettle, hcheck, ⟨hchanged, hvalue, -⟩ | ⟨hchanged, -, hvalue, -⟩⟩ :=
    visit_passed hpass
  · rw [hvalue]
    simp [visit, hsettle, hchanged, hcheck, Visit.pass]
  · rw [hvalue]
    simp [visit, settle_again hsettle hchanged hfolds, hcheck, Visit.pass]

end RuleCheck.ScalarKind
