import RuleCheck.Proofs.Visit.Checked

/-! # The first date of the calendar in another zone

A literal for that date counts as zero, so that a missing moment stays missing, but it compares as the
instant that it denotes.  Against the first date in universal time, one of the two strict comparisons holds
of the literal, and neither holds of nothing.
-/

namespace RuleCheck

namespace ScalarKind

open Time (Moment)

def firstDate : Moment := ⟨1, 1, 1, 0, 0, 0, 0, some 0⟩

/-- A token that compares a moment with the first date of the calendar in universal time. -/
def firstDateToken (earlier : Bool) : String :=
  if earlier then "val<0001-01-01" else "val>0001-01-01"

def firstDateComparison (earlier : Bool) : Comparison :=
  ⟨"val", if earlier then .lt else .gt, "0001-01-01", firstDateToken earlier⟩

def shiftedRules (literal : String) (earlier : Bool) : RuleSet :=
  ⟨[RuleSet.defaultFront ++ literal, firstDateToken earlier]⟩

theorem split_firstDate (earlier : Bool) :
    Comparison.split (firstDateToken earlier) "val" = .ok (some (firstDateComparison earlier)) := by
  cases earlier <;> rfl

theorem read_firstDate : timestamp.read "0001-01-01" = .ok (.moment firstDate) := by
  rfl

variable {literal : String} {m : Moment}

theorem instant_of_isZero (hzero : m.isZero = true) :
    m.universal.instant = firstDate.instant - m.offset.getD 0 * Time.Duration.second := by
  obtain ⟨year, month, day, hour, minute, second, micro, offset⟩ := m
  simp only [Moment.isZero, Moment.bare, Moment.zero, decide_eq_true_eq, Moment.mk.injEq,
    and_true] at hzero
  obtain ⟨rfl, rfl, rfl, rfl, rfl, rfl, rfl⟩ := hzero
  simp [Moment.universal, Moment.instant, Moment.localMicros, firstDate]

theorem meets_firstDate (hzero : m.isZero = true) (earlier : Bool) :
    (Scalar.moment m).Meets (firstDateComparison earlier).op (.moment firstDate) ↔
      if earlier then 0 < m.offset.getD 0 else m.offset.getD 0 < 0 := by
  have hsecond : (Time.Duration.second : Int) = 1000000 := rfl
  have hown := instant_of_isZero hzero
  have hother : firstDate.universal = firstDate := rfl
  have horder : (Scalar.moment m).universal.order? (Scalar.moment firstDate).universal =
      some (.ofInts m.universal.instant firstDate.instant) := by
    simp only [Scalar.universal, hother]
    exact Scalar.order?_moments rfl
  unfold Scalar.Meets
  rw [horder, hown, hsecond]
  cases earlier with
  | true =>
      simp only [firstDateComparison, Operator.holds, Order.ofInts, if_true, Option.some.injEq,
        exists_eq_left', decide_eq_true_eq]
      omega
  | false =>
      simp only [firstDateComparison, Operator.holds, Order.ofInts, Bool.false_eq_true, if_false,
        Option.some.injEq, exists_eq_left', decide_eq_true_eq]
      omega

/-- Neither strict comparison with the first date holds of the zero of moments. -/
theorem not_satisfies_zero (literal : String) (earlier : Bool) :
    ¬ timestamp.Satisfies timestamp.zero (shiftedRules literal earlier) := by
  intro h
  obtain ⟨found, hsplit, hholds⟩ := h.values (firstDateToken earlier) (by simp [shiftedRules])
  rw [split_firstDate] at hsplit
  cases hsplit
  obtain ⟨-, threshold, hread, hmeets⟩ := hholds _ rfl
  rw [firstDateComparison, read_firstDate] at hread
  cases hread
  have hnone := (meets_firstDate (m := Moment.zero) rfl earlier).1 hmeets
  cases earlier <;> exact absurd hnone (by decide)

theorem settle_shiftedRules (hread : Literal.readMoment literal = .ok m) (hzero : m.isZero = true)
    (hoffset : m.offset.getD 0 ≠ 0) (earlier : Bool) :
    timestamp.settle (shiftedRules literal earlier) .null =
      .ok ⟨.ofScalar (.moment m), false⟩ := by
  have hfront : Text.after? RuleSet.defaultFront (RuleSet.defaultFront ++ literal) = some literal :=
    Text.after?_eq_some_iff.2 rfl
  have hdefault : (shiftedRules literal earlier).default? = some literal := by
    simp [RuleSet.default?, shiftedRules, hfront]
  have hcontent : timestamp.read literal = .ok (.moment m) := by
    simp [read, hread, Except.map]
  have hother : (Value.ofScalar (.moment m)).same (.ofScalar timestamp.zero) = false := by
    cases hzone : m.offset with
    | none => simp [hzone] at hoffset
    | some offset =>
        simp [Value.ofScalar, Value.same, Value.scalar?, zero, Scalar.same, Scalar.order?, hzone,
          Moment.zero]
  have hstart : timestamp.isZero (.ofScalar timestamp.zero) = .ok true := isZero_zero timestamp
  have hfinal : timestamp.isZero (.ofScalar (.moment m)) = .ok true := by
    simp [isZero, Value.ofScalar, hzero]
  unfold settle default?
  simp only [Value.isNull, if_true, folded?, orFault, bind, Except.bind, Option.getD_none, hdefault,
    hstart, readOrStop, hcontent, hother, Bool.false_eq_true, if_false, pure, Except.pure,
    Option.getD_some, hfinal, Bool.not_true]

theorem checkStop_shiftedRules {earlier : Bool} (hmeets : (Scalar.moment m).Meets
      (firstDateComparison earlier).op (.moment firstDate)) (literal : String) :
    timestamp.checkStop (shiftedRules literal earlier) (.ofScalar (.moment m)) = none := by
  have hfront : Text.after? RuleSet.defaultFront (RuleSet.defaultFront ++ literal) = some literal :=
    Text.after?_eq_some_iff.2 rfl
  have hrequired : (shiftedRules literal earlier).required = false := by
    have hdefault : RuleSet.defaultFront ++ literal ≠ RuleSet.requiredToken :=
      Text.ne_of_disjoint hfront (by decide)
    have htoken : firstDateToken earlier ≠ RuleSet.requiredToken := by
      cases earlier <;> decide
    simp [RuleSet.required, RuleSet.has, shiftedRules, hdefault.symm, htoken.symm]
  have hdefault : timestamp.valueStop (.ofScalar (.moment m)) (RuleSet.defaultFront ++ literal) =
      none := by
    have hsplit : Comparison.split (RuleSet.defaultFront ++ literal) "val" = .ok none :=
      split_eq_none (Text.after?_eq_none_of_disjoint hfront (by decide))
    simp [valueStop, Comparison.splitOrStop, hsplit]
  have hcompare : timestamp.valueStop (.ofScalar (.moment m)) (firstDateToken earlier) = none := by
    obtain ⟨order, horder, hholds⟩ := hmeets
    have hsupports : timestamp.supports (firstDateComparison earlier).op = true := by
      cases earlier <;> rfl
    have hliteral : (firstDateComparison earlier).literal = "0001-01-01" := rfl
    simp only [Scalar.universal] at horder
    simp only [valueStop, Comparison.splitOrStop, split_firstDate, compareStop, hsupports, if_true,
      readOrStop, hliteral, read_firstDate, comparable, comparableThreshold, Value.ofScalar,
      Except.bind, Value.compare, Value.scalar?, Option.bind_some, horder, hholds]
  have htokens : (shiftedRules literal earlier).tokens =
      [RuleSet.defaultFront ++ literal, firstDateToken earlier] := rfl
  simp [checkStop, requiredStop, hrequired, signStop, htokens, tokenStop, hdefault, hcompare]

/-- A visit to a missing moment passes both tokens, and leaves the moment missing. -/
theorem visit_shiftedRules (hread : Literal.readMoment literal = .ok m) (hzero : m.isZero = true)
    (hoffset : m.offset.getD 0 ≠ 0) :
    ∃ earlier, ∀ writable,
      (timestamp.visit writable .null (shiftedRules literal earlier)).stop = none ∧
      (timestamp.visit writable .null (shiftedRules literal earlier)).value = .null := by
  refine ⟨decide (0 < m.offset.getD 0), ?_⟩
  intro writable
  have hside : if decide (0 < m.offset.getD 0) then 0 < m.offset.getD 0 else m.offset.getD 0 < 0 := by
    by_cases hpos : 0 < m.offset.getD 0
    · simp [hpos]
    · have hneg : m.offset.getD 0 < 0 := by omega
      simpa [hpos] using hneg
  have hmeets := (meets_firstDate hzero _).2 hside
  have hcheck := checkStop_shiftedRules hmeets literal
  simp [visit, settle_shiftedRules hread hzero hoffset, hcheck]

end ScalarKind

end RuleCheck
