import RuleCheck.Proofs.Visit.Settling
import RuleCheck.Walk

/-! # Visits to the missing value

Keywords beside `required` mean nothing to a missing value.  Whichever evaluator visits it, with keywords only it
stays missing, and is refused exactly if a value is required; the one exception is that of boxes, which takes a
box for granted.
-/

namespace RuleCheck

namespace RuleSet

/-- A token that is a bare word: it gives no literal, pattern or choices, and compares nothing. -/
structure Keyword (token : String) : Prop where
  noDefault : Text.after? defaultFront token = none
  noPattern : Text.argument? ScalarKind.patternFront token = none
  noChoice : Text.argument? ScalarKind.choiceFront token = none
  noComparison : ∀ key ∈ ["val", "len", Visit.sequenceKey, Visit.mappingKey],
    Comparison.split token key = .ok none

def OnlyKeywords (rules : RuleSet) : Prop :=
  ∀ token ∈ rules.tokens, Keyword token

instance (token : String) : Decidable (Keyword token) :=
  decidable_of_iff (Text.after? defaultFront token = none ∧
      Text.argument? ScalarKind.patternFront token = none ∧
      Text.argument? ScalarKind.choiceFront token = none ∧
      ∀ key ∈ ["val", "len", Visit.sequenceKey, Visit.mappingKey],
        (Comparison.split token key).toOption = some none)
    ⟨fun ⟨hdefault, hpattern, hchoice, hcomparison⟩ => ⟨hdefault, hpattern, hchoice, fun key hkey => by
        have hsplit := hcomparison key hkey
        cases hfound : Comparison.split token key with
        | error op => rw [hfound] at hsplit; cases hsplit
        | ok found => rw [hfound] at hsplit; rw [Option.some.inj hsplit]⟩,
      fun h => ⟨h.noDefault, h.noPattern, h.noChoice, fun key hkey => by
        rw [h.noComparison key hkey]
        rfl⟩⟩

example : ∀ token ∈ ["required", "notrim", "toupper", "tolower", "nonsense"], Keyword token := by
  decide +kernel

variable {rules : RuleSet}

theorem Keyword.splitOrStop {token key : String} (h : Keyword token)
    (hkey : key ∈ ["val", "len", Visit.sequenceKey, Visit.mappingKey]) :
    Comparison.splitOrStop token key = .ok none := by
  unfold Comparison.splitOrStop
  rw [h.noComparison key hkey]

theorem OnlyKeywords.default?_eq (h : rules.OnlyKeywords) : rules.default? = none :=
  List.findSome?_eq_none_iff.2 fun token htoken => (h token htoken).noDefault

theorem OnlyKeywords.missingStop_eq (h : rules.OnlyKeywords) {key : String}
    (hkey : key ∈ ["val", "len", Visit.sequenceKey, Visit.mappingKey]) :
    rules.missingStop key = if rules.required then some (.refuse .missing) else none := by
  have hnone : ∀ tokens, (∀ token ∈ tokens, Keyword token) → hasComparison key tokens = .ok false := by
    intro tokens htokens
    induction tokens with
    | nil => rfl
    | cons token tokens ih =>
        have hsplit := (htokens token List.mem_cons_self).splitOrStop hkey
        have hrest := ih fun other hother => htokens other (List.mem_cons_of_mem token hother)
        simp only [hasComparison, hsplit, bind, Except.bind, hrest]
  unfold missingStop
  rw [hnone rules.tokens h]

end RuleSet

namespace ScalarKind

variable {kind : ScalarKind} {rules : RuleSet}

theorem tokenStop_keyword {token : String} (h : RuleSet.Keyword token) (kind : ScalarKind) (value : Value) :
    kind.tokenStop value token = none := by
  have hvalue (kind : ScalarKind) : kind.valueStop value token = none := by
    unfold valueStop
    rw [h.splitOrStop (by decide)]
  have hlength : Comparison.splitOrStop token "len" = .ok none := h.splitOrStop (by decide)
  cases kind with
  | text =>
      simp only [tokenStop, textStop, hlength, h.noPattern, h.noChoice,
        hvalue]
  | _ => exact hvalue _

/-- A scalar that is missing stays missing, and is refused only if one is required. -/
theorem visit_missing (h : rules.OnlyKeywords) (kind : ScalarKind) (writable : Bool) :
    kind.visit writable .null rules =
      ⟨.null, false, [], if rules.required then some (.refuse kind.zeroReason) else none⟩ := by
  have htokens : rules.tokens.findSome? (kind.tokenStop (.ofScalar kind.zero)) = none :=
    List.findSome?_eq_none_iff.2 fun token htoken => tokenStop_keyword (h token htoken) kind _
  rw [visit_null h.default?_eq]
  simp only [checkStop, requiredStop, isZero_zero, signStop_zero, htokens]
  cases rules.required <;> rfl

end ScalarKind

/-- The reason for which an evaluator refuses a missing value if one is required. -/
def Evaluator.missingReason : Evaluator → Reason
  | .scalar kind => kind.zeroReason
  | _ => .missing

theorem Evaluator.kind_missingReason (evaluator : Evaluator) : evaluator.missingReason.kind = .required := by
  cases evaluator with
  | scalar kind => cases kind <;> rfl
  | _ => rfl

/-- A missing value stays missing, whichever evaluator but that of boxes visits it. -/
theorem Walk.evaluate_null {rules : RuleSet} (h : rules.OnlyKeywords) (walk : Walk)
    (descend : Bool → Annotation → Value → RuleSet → Visit) {evaluator : Evaluator}
    (hreference : evaluator ≠ .reference) (writable : Bool) (resolved : Resolved) :
    walk.evaluate descend evaluator writable resolved .null rules =
      ⟨.null, false, [], if rules.required then some (.refuse evaluator.missingReason) else none⟩ := by
  have hnull : Value.null.isNull = true := rfl
  cases evaluator with
  | optional => simp only [evaluate, Visit.optional, hnull, if_true, Visit.missing, Evaluator.missingReason]
  | reference => exact absurd rfl hreference
  | scalar kind => exact kind.visit_missing h writable
  | record => simp only [evaluate, Visit.record, hnull, if_true, Evaluator.missingReason]
  | sequence =>
      have hstop : rules.missingStop Visit.sequenceKey = _ := h.missingStop_eq (by decide)
      simp only [evaluate, Visit.sequence, hnull, if_true, Visit.missing, Evaluator.missingReason, hstop]
  | mapping =>
      have hstop : rules.missingStop Visit.mappingKey = _ := h.missingStop_eq (by decide)
      simp only [evaluate, Visit.mapping, hnull, if_true, Visit.missing, Evaluator.missingReason, hstop]

end RuleCheck
