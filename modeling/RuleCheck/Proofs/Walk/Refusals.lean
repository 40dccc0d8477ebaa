import RuleCheck.Proofs.Visit.Stopping
import RuleCheck.Walk

/-! # What stops a visit on its own account

A check that stops a visit ends in a fault, or in the report of a failed validation without a path.  The general
report is none of these: a hook that raises it has raised a fault.
-/

namespace RuleCheck

def Stop.Proper : Stop → Prop
  | .failed failure => failure.reason.kind ≠ .general
  | .fault _ => True

/-- A stop is no news from further down: a fault, or the report of a failed validation without a path. -/
inductive Stop.Own : Stop → Prop
  | fault (fault : Fault) : Own (.fault fault)
  | refuse {reason : Reason} (h : reason.kind ≠ .general) : Own (.failed ⟨reason, []⟩)

namespace Stop

theorem Proper.under {stop : Stop} (h : stop.Proper) (segment : String) :
    (stop.under segment).Proper := by
  cases stop with
  | failed failure => exact h
  | fault fault => exact trivial

theorem Own.proper {stop : Stop} (h : stop.Own) : stop.Proper := by
  cases h with
  | fault => exact trivial
  | refuse h => exact h

theorem OfHook.proper {stop : Stop} (h : stop.OfHook) : stop.Proper := by
  cases stop with
  | failed failure => exact h
  | fault cause => exact trivial

theorem Own.path_eq_nil {failure : Failure} (h : (failed failure).Own) : failure.path = [] := by
  cases h
  rfl

end Stop

theorem Literal.own_stop (literal token : String) (error : LiteralError) :
    (Literal.stop literal token error).Own := by
  unfold Literal.stop
  split
  · exact .fault _
  · exact Stop.Own.refuse (by simp [Reason.kind])

/-! ## Lengths -/

theorem Comparison.own_splitOrStop {token key : String} {stop : Stop}
    (h : splitOrStop token key = .error stop) : stop.Own := by
  unfold splitOrStop at h
  split at h
  · cases h
  · cases h
    exact Stop.Own.refuse (by simp [Reason.kind])

theorem Comparison.own_lengthStop {c : Comparison} {length : Except Fault Nat} {stop : Stop}
    (h : c.lengthStop length = some stop) : stop.Own := by
  unfold lengthStop at h
  split at h
  · cases h
    exact Literal.own_stop _ _ _
  · split at h
    · cases h
      exact .fault _
    · split at h
      · cases h
      · cases h
        exact Stop.Own.refuse (by simp [Reason.kind])

namespace RuleSet

theorem own_missing : (Stop.refuse .missing).Own :=
  Stop.Own.refuse (by simp [Reason.kind])

theorem own_checkLengthTokens {value : Value} {key : String} {tokens : List String}
    {rules : RuleSet} {stop : Stop} (h : checkLengthTokens value key tokens rules = .error stop) :
    stop.Own := by
  induction tokens generalizing rules with
  | nil => cases h
  | cons token tokens ih =>
      simp only [checkLengthTokens, bind, Except.bind] at h
      split at h
      · rename_i own hsplit
        cases h
        exact Comparison.own_splitOrStop hsplit
      · split at h
        · exact ih h
        · split at h
          · cases h
            exact own_missing
          · split at h
            · rename_i own hown
              cases h
              exact Comparison.own_lengthStop hown
            · exact ih h

theorem own_hasComparison {key : String} {tokens : List String} {stop : Stop}
    (h : hasComparison key tokens = .error stop) : stop.Own := by
  induction tokens with
  | nil => cases h
  | cons token tokens ih =>
      simp only [hasComparison, bind, Except.bind] at h
      split at h
      · rename_i own hsplit
        cases h
        exact Comparison.own_splitOrStop hsplit
      · split at h
        · cases h
        · exact ih h

theorem own_missingStop {rules : RuleSet} {key : String} {stop : Stop}
    (h : rules.missingStop key = some stop) : stop.Own := by
  unfold missingStop at h
  split at h
  · cases h
    exact own_missing
  · split at h
    · rename_i own hown
      cases h
      exact own_hasComparison hown
    · cases h
      exact own_missing
    · cases h

end RuleSet

/-! ## Scalars -/

namespace ScalarKind

variable {kind : ScalarKind} {value : Value} {stop : Stop}

theorem own_orFault {α : Type} {result : Except Fault α} (h : orFault result = .error stop) :
    stop.Own := by
  cases result with
  | ok a => cases h
  | error fault =>
      cases h
      exact .fault _

theorem own_readOrStop {literal token : String}
    (h : kind.readOrStop literal token = .error stop) : stop.Own := by
  unfold readOrStop at h
  split at h
  · cases h
  · cases h
    exact Literal.own_stop _ _ _

theorem own_default {rules : RuleSet} (h : kind.default? rules value = .error stop) :
    stop.Own := by
  unfold default? at h
  split at h
  · cases h
  · rename_i literal _
    simp only [bind, Except.bind] at h
    split at h
    · rename_i own hzero
      cases h
      exact own_orFault hzero
    · split at h
      · split at h
        · rename_i own hread
          cases h
          exact own_readOrStop hread
        · cases h
      · cases h

theorem own_settle {rules : RuleSet} {held : Value} (h : kind.settle rules held = .error stop) :
    stop.Own := by
  unfold settle at h
  simp only [bind, Except.bind] at h
  split at h
  · rename_i own hfolded
    cases h
    exact own_orFault hfolded
  · split at h
    · rename_i own hdefault
      cases h
      exact own_default hdefault
    · split at h
      · split at h
        · rename_i own hzero
          cases h
          exact own_orFault hzero
        · cases h
      · cases h

theorem own_valueStop {token : String} (h : kind.valueStop value token = some stop) :
    stop.Own := by
  unfold valueStop at h
  split at h
  · rename_i own hsplit
    cases h
    exact Comparison.own_splitOrStop hsplit
  · cases h
  · unfold compareStop at h
    split at h
    · split at h
      · rename_i own hread
        cases h
        exact own_readOrStop hread
      · split at h
        · cases h
          exact .fault _
        · cases h
        · cases h
          exact Stop.Own.refuse (by simp [Reason.kind])
    · cases h
      exact Stop.Own.refuse (by simp [Reason.kind])

theorem own_patternStop {text : String} (h : patternStop value text = some stop) :
    stop.Own := by
  unfold patternStop at h
  split at h
  · cases h
    exact Stop.Own.refuse (by simp [Reason.kind])
  iterate 4
    · cases h
      exact .fault _
  · split at h
    · split at h
      · cases h
      · cases h
        exact Stop.Own.refuse (by simp [Reason.kind])
    · cases h
      exact .fault _

theorem own_tokenStop {token : String} (h : kind.tokenStop value token = some stop) :
    stop.Own := by
  unfold tokenStop at h
  split at h
  · unfold textStop at h
    split at h
    · rename_i own hsplit
      cases h
      exact Comparison.own_splitOrStop hsplit
    · exact Comparison.own_lengthStop h
    · split at h
      · exact own_patternStop h
      · split at h
        · unfold choiceStop at h
          split at h
          · cases h
          · cases h
            exact Stop.Own.refuse (by simp [Reason.kind])
        · exact own_valueStop h
  · exact own_valueStop h

theorem own_checkStop {rules : RuleSet} (h : kind.checkStop rules value = some stop) :
    stop.Own := by
  simp only [checkStop, Option.orElse_eq_or] at h
  rcases Option.or_eq_some_iff.1 h with hrequired | ⟨-, h⟩
  · unfold requiredStop at hrequired
    split at hrequired
    · split at hrequired
      · cases hrequired
        exact .fault _
      · cases hrequired
        exact Stop.Own.refuse (by cases kind <;> simp [zeroReason, Reason.kind])
      · cases hrequired
    · cases hrequired
  · rcases Option.or_eq_some_iff.1 h with hsign | ⟨-, h⟩
    · unfold signStop at hsign
      split at hsign
      · split at hsign
        · cases hsign
          exact .fault _
        · cases hsign
          exact Stop.Own.refuse (by simp [Reason.kind])
        · cases hsign
      · cases hsign
    · obtain ⟨token, -, htoken⟩ := List.exists_of_findSome?_eq_some h
      exact own_tokenStop htoken

theorem own_visit {writable : Bool} {held : Value} {rules : RuleSet}
    (h : (kind.visit writable held rules).stop = some stop) : stop.Own := by
  unfold visit at h
  split at h
  · rename_i own hsettle
    cases h
    exact own_settle hsettle
  · split at h
    · split at h
      · exact own_checkStop h
      · cases h
        exact Stop.Own.refuse (by simp [Reason.kind])
    · exact own_checkStop h

end ScalarKind

end RuleCheck
