import RuleCheck.Proofs.Text.Fronts
import RuleCheck.Proofs.Visit.ScalarFaults

/-! # Tokens that end a visit in a fault

Each token that cannot be used stops the visit to a missing scalar of its kind, if it is the only one.
-/

namespace RuleCheck

namespace Literal

theorem readUnsigned_ne_overflow (text : String) (overflow : Time.DurationOverflow) :
    readUnsigned text ≠ .error (.durationOverflow overflow) := by
  intro h
  unfold readUnsigned at h
  simp only at h
  split at h
  · cases h
  · cases hdigits : readDigits text.toList with
    | ok n => simp [hdigits, Except.map] at h
    | error error =>
        rw [hdigits] at h
        cases h
        exact readDigits_ne_overflow _ _ hdigits

theorem readFloat_ne_overflow (text : String) (overflow : Time.DurationOverflow) :
    readFloat text ≠ .error (.durationOverflow overflow) := by
  unfold readFloat
  simp only
  split
  · simp
  · split
    · split
      · simp
      · split <;> simp
    · simp

theorem readBool_ne_overflow (text : String) (overflow : Time.DurationOverflow) :
    readBool text ≠ .error (.durationOverflow overflow) := by
  unfold readBool
  split
  · simp
  · split <;> simp

theorem readMoment_ne_overflow (text : String) (overflow : Time.DurationOverflow) :
    readMoment text ≠ .error (.durationOverflow overflow) := by
  have hfields : ∀ f : LongFields, f.moment ≠ .error (.durationOverflow overflow) := by
    intro f
    unfold LongFields.moment
    simp only
    repeat' split
    all_goals simp
  unfold readMoment
  simp only
  split
  · simp
  · split
    · split <;> simp
    · split
      · simp
      · split
        · exact hfields _
        · simp

end Literal

namespace ScalarKind

theorem eq_duration_of_read {kind : ScalarKind} {literal : String}
    {overflow : Time.DurationOverflow}
    (h : kind.read literal = .error (.durationOverflow overflow)) : kind = .duration := by
  have hmap {α : Type} {result : Except Literal.LiteralError α} {f : α → Scalar}
      (h : result.map f = .error (.durationOverflow overflow)) :
      result = .error (.durationOverflow overflow) := by
    cases result with
    | ok a => cases h
    | error error =>
        cases h
        rfl
  cases kind with
  | duration => rfl
  | text => cases h
  | int => exact absurd (hmap h) (Literal.readInt_ne_overflow _ _)
  | uint => exact absurd (hmap h) (Literal.readUnsigned_ne_overflow _ _)
  | float => exact absurd (hmap h) (Literal.readFloat_ne_overflow _ _)
  | bool => exact absurd (hmap h) (Literal.readBool_ne_overflow _ _)
  | timestamp => exact absurd (hmap h) (Literal.readMoment_ne_overflow _ _)

theorem after?_of_split {token key : String} {c : Comparison}
    (h : Comparison.split token key = .ok (some c)) : ∃ rest, Text.after? key token = some rest := by
  unfold Comparison.split at h
  cases hfront : Text.after? key token with
  | some rest => exact ⟨rest, rfl⟩
  | none => simp [hfront] at h

theorem split_eq_none {token key : String} (h : Text.after? key token = none) :
    Comparison.split token key = .ok none := by
  simp [Comparison.split, h]

theorem default?_singleton {token : String} (h : Text.after? RuleSet.defaultFront token = none) :
    RuleSet.default? ⟨[token]⟩ = none := by
  simp [RuleSet.default?, h]

theorem checkStop_of_tokenStop {kind : ScalarKind} {token : String} {fault : Fault}
    (hrequired : token ≠ RuleSet.requiredToken)
    (h : kind.tokenStop (.ofScalar kind.zero) token = some (.fault fault)) :
    kind.checkStop ⟨[token]⟩ (.ofScalar kind.zero) = some (.fault fault) := by
  have hno : RuleSet.required ⟨[token]⟩ = false := by
    simpa [RuleSet.required, RuleSet.has] using Ne.symm hrequired
  have htoken : [token].findSome? (kind.tokenStop (.ofScalar kind.zero)) = some (.fault fault) := by
    rw [List.findSome?_cons, h]
  rw [checkStop, requiredStop, hno, signStop_zero, htoken]
  rfl

/-- Each token that cannot be used ends the visit to a missing scalar in its fault. -/
theorem Escapes.visit_null {kind : ScalarKind} {token : String} {fault : Fault}
    (h : kind.Escapes token fault) (writable : Bool) :
    (kind.visit writable .null ⟨[token]⟩).stop = some (.fault fault) := by
  cases h with
  | @threshold c overflow hsplit hread =>
      obtain rfl := eq_duration_of_read hread
      obtain ⟨rest, hrest⟩ := after?_of_split hsplit
      rw [ScalarKind.visit_null (default?_singleton (Text.after?_eq_none_of_disjoint hrest (by decide)))]
      refine checkStop_of_tokenStop (Text.ne_of_disjoint hrest (by decide)) ?_
      have hsupports : supports .duration c.op = true := by
        cases c.op <;> rfl
      simp only [tokenStop, valueStop, Comparison.splitOrStop, hsplit, compareStop, hsupports,
        if_true, readOrStop, hread, Literal.stop]
  | @default literal overflow hfront hread =>
      obtain rfl := eq_duration_of_read hread
      have hdefault : RuleSet.default? ⟨[token]⟩ = some literal := by
        simp [RuleSet.default?, hfront]
      have hsettle : settle .duration ⟨[token]⟩ .null =
          .error (.fault (.durationOverflow overflow)) := by
        have hzero := isZero_zero .duration
        unfold settle default?
        simp only [Value.isNull, if_true, hdefault, folded?, orFault, bind, Except.bind,
          Option.getD_none, hzero, readOrStop, hread, Literal.stop]
      simp [visit, hsettle, Visit.halt]
  | @pattern text failure _ hkind hfront hparse hfault =>
      subst hkind
      have hrest := Text.after?_of_argument? hfront
      rw [ScalarKind.visit_null (default?_singleton (Text.after?_eq_none_of_disjoint hrest (by decide)))]
      refine checkStop_of_tokenStop (Text.ne_of_disjoint hrest (by decide)) ?_
      have hkey : Text.after? "len" token = none :=
        Text.after?_eq_none_of_disjoint hrest (by decide)
      have hlength : Comparison.splitOrStop token "len" = .ok none := by
        simp [Comparison.splitOrStop, split_eq_none hkey]
      simp only [tokenStop, textStop, hlength, hfront, patternStop, hparse]
      cases failure <;> simp_all [Pattern.Failure.fault?]

end ScalarKind

end RuleCheck
