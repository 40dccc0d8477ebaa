import RuleCheck.Proofs.Category.Stable
import RuleCheck.Proofs.Visit.Settling

/-! # Faults of visits to scalars

A scalar that is of the kind of its place never lets an operation fail.  What remains are the rules: a
visit to such a scalar ends in a fault only at a duration with too many days, or at a pattern that the
compiler of patterns gives up on.
-/

namespace RuleCheck

def Pattern.Failure.fault? : Pattern.Failure → Option Fault
  | malformed _ => none
  | repetitionTooLarge => some .repetitionTooLarge
  | tooManyDigits count => some (.tooManyDigits count)
  | codeTooLarge => some .codeTooLarge
  | exclusiveFlags => some .exclusiveFlags

namespace Scalar

theorem order?_moments {m n : Time.Moment} (h : m.offset.isSome = n.offset.isSome) :
    (moment m).order? (.moment n) = some (.ofInts m.instant n.instant) := by
  simp [order?, h]

/-- Scalars of one class compare, except for moments, and integers compare with all numbers. -/
theorem order?_of_base {a b : Scalar} (h : a.base = b.base ∨ (a.base = .int ∧ b.base = .float))
    (hmoment : b.base ≠ .moment) : ∃ order, a.order? b = some order := by
  cases a <;> cases b <;> simp_all [base, order?, point?]
  case float.float x y => cases x.point? <;> cases y.point? <;> exact ⟨_, rfl⟩
  case int.float n y => cases y.point? <;> exact ⟨_, rfl⟩

end Scalar

namespace Literal

theorem stop_eq_fault {literal token : String} {error : LiteralError} {fault : Fault}
    (h : Literal.stop literal token error = .fault fault) :
    ∃ overflow, error = .durationOverflow overflow ∧ fault = .durationOverflow overflow := by
  unfold Literal.stop at h
  split at h
  · cases h
    exact ⟨_, rfl, rfl⟩
  · cases h

theorem readDigits_ne_overflow (digits : List Char) (overflow : Time.DurationOverflow) :
    readDigits digits ≠ .error (.durationOverflow overflow) := by
  unfold readDigits
  split <;> simp

theorem readInt_ne_overflow (text : String) (overflow : Time.DurationOverflow) :
    readInt text ≠ .error (.durationOverflow overflow) := by
  intro h
  unfold readInt at h
  simp only at h
  split at h
  · cases h
  · cases hdigits : readDigits (splitSign text.toList).2 with
    | ok n => simp [hdigits, Except.map] at h
    | error error =>
        rw [hdigits] at h
        cases h
        exact readDigits_ne_overflow _ _ hdigits

end Literal

namespace Comparison

theorem splitOrStop_ne_fault (token key : String) (fault : Fault) :
    splitOrStop token key ≠ .error (.fault fault) := by
  unfold splitOrStop
  split <;> simp [Stop.refuse]

theorem lengthStop_eq_fault {c : Comparison} {length : Except Fault Nat} {fault : Fault}
    (h : c.lengthStop length = some (.fault fault)) : length = .error fault := by
  unfold lengthStop at h
  split at h
  · rename_i error hread
    obtain ⟨overflow, rfl, -⟩ := Literal.stop_eq_fault (Option.some.inj h)
    exact absurd hread (Literal.readInt_ne_overflow _ _)
  · split at h
    · cases h
      rfl
    · split at h <;> simp [Stop.refuse] at h

end Comparison

namespace ScalarKind

/-- A value that is a scalar of a kind, or an integer in the place of a floating-point number. -/
def Suits (kind : ScalarKind) (value : Value) : Prop :=
  ∃ origin content, value = .scalar origin content ∧
    (content.base = kind.base ∨ (kind = .float ∧ content.base = .int))

theorem suits_ofScalar {kind : ScalarKind} {content : Scalar} (h : content.base = kind.base) :
    kind.Suits (.ofScalar content) :=
  ⟨.plain, content, rfl, .inl h⟩

/-- The tokens that a visit to a scalar cannot get through, and how it ends. -/
inductive Escapes (kind : ScalarKind) (token : String) : Fault → Prop
  | threshold {c : Comparison} {overflow : Time.DurationOverflow}
      (hsplit : Comparison.split token "val" = .ok (some c))
      (hread : kind.read c.literal = .error (.durationOverflow overflow)) :
      Escapes kind token (.durationOverflow overflow)
  | default {literal : String} {overflow : Time.DurationOverflow}
      (hfront : Text.after? RuleSet.defaultFront token = some literal)
      (hread : kind.read literal = .error (.durationOverflow overflow)) :
      Escapes kind token (.durationOverflow overflow)
  | pattern {text : String} {failure : Pattern.Failure} {fault : Fault} (hkind : kind = .text)
      (hfront : Text.argument? patternFront token = some text)
      (hparse : Pattern.parse text = .error failure) (hfault : failure.fault? = some fault) :
      Escapes kind token fault

variable {kind : ScalarKind} {value : Value} {fault : Fault}

theorem readOrStop_eq_fault {literal token : String}
    (h : kind.readOrStop literal token = .error (.fault fault)) :
    ∃ overflow, kind.read literal = .error (.durationOverflow overflow) ∧
      fault = .durationOverflow overflow := by
  unfold readOrStop at h
  split at h
  · cases h
  · rename_i error hread
    obtain ⟨overflow, rfl, rfl⟩ := Literal.stop_eq_fault (Except.error.inj h)
    exact ⟨overflow, hread, rfl⟩

/-! ## Operations on values of the kind -/

theorem isZero_of_suits (h : kind.Suits value) : ∃ zero, kind.isZero value = .ok zero := by
  obtain ⟨origin, content, rfl, hbase⟩ := h
  cases kind <;> cases content <;> simp_all [isZero, Scalar.base, base]

theorem folded?_of_suits (h : kind.Suits value) (rules : RuleSet) :
    ∃ folded, kind.folded? rules value = .ok folded := by
  obtain ⟨origin, content, rfl, hbase⟩ := h
  unfold folded?
  split
  · cases content <;> simp_all [Scalar.base, base]
  · exact ⟨none, rfl⟩

theorem order?_of_suits (h : kind.Suits value) {threshold : Scalar}
    (hbase : threshold.base = kind.base) :
    ∃ own content order, kind.comparable value = .ok own ∧ own.scalar? = some content ∧
      content.order? (kind.comparableThreshold threshold) = some order := by
  obtain ⟨origin, content, rfl, hcontent⟩ := h
  by_cases hkind : kind = .timestamp
  · subst hkind
    cases content <;> simp [Scalar.base, base] at hcontent
    cases threshold <;> simp [Scalar.base, base] at hbase
    exact ⟨_, _, _, rfl, rfl, Scalar.order?_moments rfl⟩
  · have hown : kind.comparable (.scalar origin content) = .ok (.scalar origin content) := by
      cases kind <;> first | rfl | exact absurd rfl hkind
    have hthreshold : kind.comparableThreshold threshold = threshold := by
      cases kind <;> first | rfl | exact absurd rfl hkind
    obtain ⟨order, horder⟩ : ∃ order, content.order? threshold = some order := by
      refine Scalar.order?_of_base ?_ ?_
      · rw [hbase]
        rcases hcontent with hcontent | ⟨rfl, hcontent⟩
        · exact .inl hcontent
        · exact .inr ⟨hcontent, rfl⟩
      · rw [hbase]
        cases kind <;> simp_all [base]
    exact ⟨_, content, order, hown, rfl, by rw [hthreshold, horder]⟩

theorem compare_of_suits (h : kind.Suits value) {threshold : Scalar}
    (hbase : threshold.base = kind.base) (op : Operator) :
    ∃ holds, (kind.comparable value).bind (fun own =>
      own.compare op (kind.comparableThreshold threshold)) = .ok holds := by
  obtain ⟨own, content, order, hown, hcontent, horder⟩ := order?_of_suits h hbase
  exact ⟨op.holds order.less order.equal order.greater, by
    simp [hown, Except.bind, Value.compare, hcontent, horder]⟩

/-! ## Checks -/

theorem valueStop_eq_fault (h : kind.Suits value) {token : String}
    (hstop : kind.valueStop value token = some (.fault fault)) : kind.Escapes token fault := by
  unfold valueStop Comparison.splitOrStop at hstop
  cases hsplit : Comparison.split token "val" with
  | error op => simp [hsplit, Stop.refuse] at hstop
  | ok found =>
      cases found with
      | none => simp [hsplit] at hstop
      | some c =>
          simp only [hsplit, compareStop] at hstop
          split at hstop
          · split at hstop
            · rename_i stop hread
              cases hstop
              obtain ⟨overflow, hliteral, rfl⟩ := readOrStop_eq_fault hread
              exact .threshold hsplit hliteral
            · rename_i threshold hread
              rw [readOrStop_eq_ok] at hread
              obtain ⟨holds, hholds⟩ := compare_of_suits h (base_of_read hread) c.op
              rw [hholds] at hstop
              cases holds <;> simp [Stop.refuse] at hstop
          · simp [Stop.refuse] at hstop

theorem textStop_eq_fault (h : text.Suits value) {token : String}
    (hstop : textStop value token = some (.fault fault)) : text.Escapes token fault := by
  obtain ⟨origin, content, rfl, hbase⟩ := h
  obtain ⟨s, rfl⟩ : ∃ s, content = .text s := by
    cases content <;> simp_all [Scalar.base, base]
  unfold textStop at hstop
  split at hstop
  · rename_i stop hsplit
    cases hstop
    exact absurd hsplit (Comparison.splitOrStop_ne_fault _ _ _)
  · have := Comparison.lengthStop_eq_fault hstop
    simp [Value.lengthOrFault, Value.isOversized, Value.length?] at this
  · split at hstop
    · rename_i pattern hfront
      unfold patternStop at hstop
      cases hparse : Pattern.parse pattern with
      | ok compiled =>
          simp only [hparse] at hstop
          split at hstop <;> simp [Stop.refuse] at hstop
      | error failure =>
          refine .pattern rfl hfront hparse ?_
          cases failure <;> simp_all [Pattern.Failure.fault?, Stop.refuse]
    · split at hstop
      · unfold choiceStop at hstop
        split at hstop <;> simp [Stop.refuse] at hstop
      · exact valueStop_eq_fault ⟨origin, .text s, rfl, hbase⟩ hstop

theorem tokenStop_eq_fault (h : kind.Suits value) {token : String}
    (hstop : kind.tokenStop value token = some (.fault fault)) : kind.Escapes token fault := by
  unfold tokenStop at hstop
  split at hstop
  · exact textStop_eq_fault h hstop
  · exact valueStop_eq_fault h hstop

theorem requiredStop_ne_fault (h : kind.Suits value) (rules : RuleSet) :
    kind.requiredStop rules value ≠ some (.fault fault) := by
  obtain ⟨zero, hzero⟩ := isZero_of_suits h
  unfold requiredStop
  split
  · rw [hzero]
    cases zero <;> simp [Stop.refuse]
  · simp

theorem signStop_ne_fault (h : kind.Suits value) : kind.signStop value ≠ some (.fault fault) := by
  unfold signStop
  split
  · obtain ⟨origin, content, rfl, hbase⟩ := h
    cases content <;> simp_all only [Scalar.base, base, reduceCtorEq, false_and, or_false]
    rename_i n
    simp only [Value.compare, Value.scalar?, Option.bind_some, Scalar.order?, Scalar.point?]
    split <;> simp_all [Stop.refuse]
  · simp

theorem checkStop_eq_fault (h : kind.Suits value) {rules : RuleSet}
    (hstop : kind.checkStop rules value = some (.fault fault)) :
    ∃ token ∈ rules.tokens, kind.Escapes token fault := by
  simp only [checkStop, Option.orElse_eq_or] at hstop
  rcases Option.or_eq_some_iff.1 hstop with hrequired | ⟨-, hstop⟩
  · exact absurd hrequired (requiredStop_ne_fault h rules)
  · rcases Option.or_eq_some_iff.1 hstop with hsign | ⟨-, hstop⟩
    · exact absurd hsign (signStop_ne_fault h)
    · obtain ⟨token, htoken, hstop⟩ := List.exists_of_findSome?_eq_some hstop
      exact ⟨token, htoken, tokenStop_eq_fault h hstop⟩

/-! ## Visits -/

theorem start_suits {held : Value} (h : held = .null ∨ kind.Suits held) :
    kind.Suits (kind.start held) := by
  unfold start
  split
  · exact suits_ofScalar (base_zero kind)
  · rename_i hnull
    rcases h with rfl | h
    · simp [Value.isNull] at hnull
    · exact h

theorem folded_suits {rules : RuleSet} {folded : Option Value} (h : kind.Suits value)
    (hfolded : kind.folded? rules value = .ok folded) : kind.Suits (folded.getD value) := by
  rcases folded?_eq_ok hfolded with ⟨rfl, -⟩ | ⟨origin, s, rfl, -, rfl⟩
  · exact h
  · exact suits_ofScalar rfl

theorem default_suits {rules : RuleSet} {default : Option Value} (h : kind.Suits value)
    (hdefault : kind.default? rules value = .ok default) : kind.Suits (default.getD value) := by
  cases hnew : default with
  | none => exact h
  | some new =>
      obtain ⟨literal, content, -, -, hread, rfl, -⟩ := default?_eq_ok hdefault new hnew
      exact suits_ofScalar (base_of_read hread)

theorem Settling.suits {rules : RuleSet} {held : Value} {settled : Settled}
    {folded default : Option Value} (h : kind.Settling rules held settled folded default)
    (hheld : held = .null ∨ kind.Suits held) : kind.Suits settled.value := by
  rw [h.value_eq]
  exact default_suits (folded_suits (start_suits hheld) h.folding) h.defaulting

theorem default?_eq_fault (h : kind.Suits value) {rules : RuleSet}
    (hfault : kind.default? rules value = .error (.fault fault)) :
    ∃ token ∈ rules.tokens, kind.Escapes token fault := by
  obtain ⟨zero, hzero⟩ := isZero_of_suits h
  unfold default? at hfault
  cases hdefault : rules.default? with
  | none => simp [hdefault] at hfault
  | some literal =>
      obtain ⟨token, htoken, hfront⟩ := List.exists_of_findSome?_eq_some hdefault
      simp only [hdefault, hzero, orFault, bind, Except.bind] at hfault
      cases zero with
      | false => simp [pure, Except.pure] at hfault
      | true =>
          simp only [if_true] at hfault
          split at hfault
          · rename_i stop hread
            cases hfault
            obtain ⟨overflow, hliteral, rfl⟩ := readOrStop_eq_fault hread
            exact ⟨token, htoken, .default hfront hliteral⟩
          · simp [pure, Except.pure] at hfault

theorem settle_eq_fault {rules : RuleSet} {held : Value} (hheld : held = .null ∨ kind.Suits held)
    (hfault : kind.settle rules held = .error (.fault fault)) :
    ∃ token ∈ rules.tokens, kind.Escapes token fault := by
  have hstart := start_suits hheld
  obtain ⟨folded, hfolded⟩ := folded?_of_suits hstart rules
  have hvalue := folded_suits hstart hfolded
  have hsettle : kind.settle rules held =
      (kind.default? rules (folded.getD (kind.start held))).bind fun default =>
        let final := default.getD (folded.getD (kind.start held))
        if held.isNull then
          (orFault (kind.isZero final)).bind fun zero => .ok ⟨final, !zero⟩
        else .ok ⟨final, (default.orElse fun _ => folded).any fun new => !new.same held⟩ := by
    unfold settle
    simp only [start] at hfolded
    simp only [hfolded, orFault, bind, Except.bind, pure, Except.pure, start]
  rw [hsettle] at hfault
  cases hdefault : kind.default? rules (folded.getD (kind.start held)) with
  | error stop =>
      rw [hdefault] at hfault
      cases hfault
      exact default?_eq_fault hvalue hdefault
  | ok default =>
      obtain ⟨zero, hzero⟩ := isZero_of_suits (default_suits hvalue hdefault)
      simp only [hdefault, Except.bind, hzero, orFault] at hfault
      split at hfault <;> cases hfault

/-- A visit to a missing scalar or one of the kind ends in a fault only at a token that cannot be used. -/
theorem visit_eq_fault {writable : Bool} {held : Value} {rules : RuleSet}
    (hheld : held = .null ∨ kind.Suits held)
    (hstop : (kind.visit writable held rules).stop = some (.fault fault)) :
    ∃ token ∈ rules.tokens, kind.Escapes token fault := by
  unfold visit at hstop
  split at hstop
  · rename_i stop hsettle
    simp only [Visit.halt, Option.some.injEq] at hstop
    subst hstop
    exact settle_eq_fault hheld hsettle
  · rename_i settled hsettle
    obtain ⟨folded, default, h⟩ := settle_eq_ok hsettle
    split at hstop
    · split at hstop
      · exact checkStop_eq_fault (h.suits hheld) hstop
      · simp [Visit.refuse, Visit.halt, Stop.refuse] at hstop
    · exact checkStop_eq_fault (h.suits hheld) hstop

theorem suits_of_resolve {declared : Annotation}
    (hcategory : (value.resolve declared).category = kind.category) :
    value = .null ∨ kind.Suits value :=
  Value.scalar_of_resolve hcategory

end ScalarKind

end RuleCheck
