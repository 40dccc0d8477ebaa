import RuleCheck.Proofs.Visit.Passing
import RuleCheck.Proofs.Visit.ScalarFaults
import RuleCheck.Proofs.Visit.Stopping

/-! # Visits that do not descend

A visit to a scalar, of whatever kind the value is that it gets, is never stopped because a walk went too
deep, and neither is the check of a length or a hook.  Only visits to what is inside can be stopped so.
-/

namespace RuleCheck

namespace Value

theorem compare_ne_tooDeep (value : Value) (op : Operator) (threshold : Scalar) :
    value.compare op threshold ≠ .error .tooDeep := by
  unfold compare
  split
  · simp
  · split
    · simp
    · simp
    · split <;> simp

theorem lengthOrFault_ne_tooDeep (value : Value) : value.lengthOrFault ≠ .error .tooDeep := by
  unfold lengthOrFault
  split
  · simp
  · split <;> simp

end Value

namespace ScalarKind

variable {kind : ScalarKind} {value : Value} {rules : RuleSet}

theorem isZero_ne_tooDeep (kind : ScalarKind) (value : Value) :
    kind.isZero value ≠ .error .tooDeep := by
  unfold isZero
  split
  · split <;> simp
  · simp

theorem folded?_ne_tooDeep (kind : ScalarKind) (rules : RuleSet) (value : Value) :
    kind.folded? rules value ≠ .error .tooDeep := by
  unfold folded?
  split
  · split <;> simp
  · simp

theorem comparable_ne_tooDeep (kind : ScalarKind) (value : Value) :
    kind.comparable value ≠ .error .tooDeep := by
  unfold comparable
  split
  · split <;> simp
  · simp

theorem readOrStop_ne_tooDeep (kind : ScalarKind) (literal token : String) :
    kind.readOrStop literal token ≠ .error (.fault .tooDeep) := by
  intro h
  obtain ⟨overflow, -, hfault⟩ := readOrStop_eq_fault h
  cases hfault

theorem orFault_ne_tooDeep {α : Type} {result : Except Fault α} (h : result ≠ .error .tooDeep) :
    orFault result ≠ .error (.fault .tooDeep) := by
  cases result with
  | ok a => simp [orFault]
  | error fault => simpa [orFault] using h

theorem bind_ne_tooDeep {α β : Type} {result : Except Stop α} {next : α → Except Stop β}
    (h : result ≠ .error (.fault .tooDeep)) (hnext : ∀ a, next a ≠ .error (.fault .tooDeep)) :
    (result >>= next) ≠ .error (.fault .tooDeep) := by
  cases result with
  | ok a => exact hnext a
  | error stop => simpa [bind, Except.bind] using h

theorem default?_ne_tooDeep (kind : ScalarKind) (rules : RuleSet) (value : Value) :
    kind.default? rules value ≠ .error (.fault .tooDeep) := by
  unfold default?
  split
  · simp
  · refine bind_ne_tooDeep (orFault_ne_tooDeep (kind.isZero_ne_tooDeep value)) fun zero => ?_
    split
    · refine bind_ne_tooDeep (kind.readOrStop_ne_tooDeep _ _) fun content => ?_
      simp [pure, Except.pure]
    · simp [pure, Except.pure]

theorem settle_ne_tooDeep (kind : ScalarKind) (rules : RuleSet) (held : Value) :
    kind.settle rules held ≠ .error (.fault .tooDeep) := by
  unfold settle
  refine bind_ne_tooDeep (orFault_ne_tooDeep (kind.folded?_ne_tooDeep _ _)) fun folded => ?_
  refine bind_ne_tooDeep (kind.default?_ne_tooDeep _ _) fun default => ?_
  simp only
  split
  · refine bind_ne_tooDeep (orFault_ne_tooDeep (kind.isZero_ne_tooDeep _)) fun zero => ?_
    simp [pure, Except.pure]
  · simp [pure, Except.pure]

theorem compareStop_ne_tooDeep (kind : ScalarKind) (value : Value) (c : Comparison) :
    kind.compareStop value c ≠ some (.fault .tooDeep) := by
  unfold compareStop
  split
  · split
    · rename_i stop hstop
      intro h
      cases h
      exact kind.readOrStop_ne_tooDeep _ _ hstop
    · split
      · rename_i threshold _ fault hfault
        intro h
        cases h
        cases hown : kind.comparable value with
        | error own =>
            rw [hown] at hfault
            cases hfault
            exact kind.comparable_ne_tooDeep value hown
        | ok own =>
            rw [hown] at hfault
            exact own.compare_ne_tooDeep _ _ hfault
      · simp
      · simp [Stop.refuse]
  · simp [Stop.refuse]

theorem valueStop_ne_tooDeep (kind : ScalarKind) (value : Value) (token : String) :
    kind.valueStop value token ≠ some (.fault .tooDeep) := by
  unfold valueStop
  split
  · rename_i stop hstop
    intro h
    cases h
    exact Comparison.splitOrStop_ne_fault _ _ _ hstop
  · simp
  · exact kind.compareStop_ne_tooDeep _ _

theorem patternStop_ne_tooDeep (value : Value) (text : String) :
    patternStop value text ≠ some (.fault .tooDeep) := by
  unfold patternStop
  split
  case h_6 =>
    split
    · split <;> simp [Stop.refuse]
    · simp
  all_goals simp [Stop.refuse]

theorem choiceStop_ne_tooDeep (value : Value) (choices : String) :
    choiceStop value choices ≠ some (.fault .tooDeep) := by
  unfold choiceStop
  split <;> simp [Stop.refuse]

theorem textStop_ne_tooDeep (value : Value) (token : String) :
    textStop value token ≠ some (.fault .tooDeep) := by
  unfold textStop
  split
  · rename_i stop hstop
    intro h
    cases h
    exact Comparison.splitOrStop_ne_fault _ _ _ hstop
  · intro h
    exact value.lengthOrFault_ne_tooDeep (Comparison.lengthStop_eq_fault h)
  · split
    · exact patternStop_ne_tooDeep value _
    · split
      · exact choiceStop_ne_tooDeep value _
      · exact valueStop_ne_tooDeep text value token

theorem tokenStop_ne_tooDeep (kind : ScalarKind) (value : Value) (token : String) :
    kind.tokenStop value token ≠ some (.fault .tooDeep) := by
  unfold tokenStop
  split
  · exact textStop_ne_tooDeep value token
  · exact kind.valueStop_ne_tooDeep value token

theorem requiredStop_ne_tooDeep (kind : ScalarKind) (rules : RuleSet) (value : Value) :
    kind.requiredStop rules value ≠ some (.fault .tooDeep) := by
  have hzero := kind.isZero_ne_tooDeep value
  unfold requiredStop
  split
  · split
    · rename_i fault hfault
      rw [hfault] at hzero
      simpa using hzero
    · simp [Stop.refuse]
    · simp
  · simp

theorem signStop_ne_tooDeep (kind : ScalarKind) (value : Value) :
    kind.signStop value ≠ some (.fault .tooDeep) := by
  have hcompare := value.compare_ne_tooDeep .lt (.int 0)
  unfold signStop
  split
  · split
    · rename_i fault hfault
      rw [hfault] at hcompare
      simpa using hcompare
    · simp [Stop.refuse]
    · simp
  · simp

theorem checkStop_ne_tooDeep (kind : ScalarKind) (rules : RuleSet) (value : Value) :
    kind.checkStop rules value ≠ some (.fault .tooDeep) := by
  intro h
  simp only [checkStop, Option.orElse_eq_or] at h
  rcases Option.or_eq_some_iff.1 h with h | ⟨-, h⟩
  · exact kind.requiredStop_ne_tooDeep rules value h
  · rcases Option.or_eq_some_iff.1 h with h | ⟨-, h⟩
    · exact kind.signStop_ne_tooDeep value h
    · obtain ⟨token, -, htoken⟩ := List.exists_of_findSome?_eq_some h
      exact kind.tokenStop_ne_tooDeep value token htoken

/-- A visit to a scalar does not go deeper, whatever value it gets. -/
theorem visit_ne_tooDeep (kind : ScalarKind) (writable : Bool) (held : Value) (rules : RuleSet) :
    (kind.visit writable held rules).stop ≠ some (.fault .tooDeep) := by
  unfold visit
  split
  · rename_i stop hstop
    intro h
    cases h
    exact kind.settle_ne_tooDeep rules held hstop
  · split
    · split
      · exact kind.checkStop_ne_tooDeep rules _
      · simp [Visit.refuse, Visit.halt, Stop.refuse]
    · exact kind.checkStop_ne_tooDeep rules _

end ScalarKind

theorem Visit.hook_ne_tooDeep (typeName : String) (called : Option Value) (context record : Value)
    (method : Option Hook) :
    (Visit.hook typeName called context method record).stop ≠ some (.fault .tooDeep) := by
  cases method with
  | none => simp [Visit.hook, Visit.pass]
  | some hook => exact fun h => (hook.ofHook context record _ h).2 rfl

end RuleCheck
