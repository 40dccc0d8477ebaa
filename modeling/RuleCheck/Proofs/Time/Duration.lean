import RuleCheck.Time.Duration
import Mathlib.Data.List.Induction

/-! # Durations that can be held, and their digits

A number of microseconds is a duration as long as its days are within bounds.  The decimal places of its text
are those of the quotient by a unit without the zeros at their end, which the quotient does not need.
-/

namespace RuleCheck.Time.Duration

/--
Whether so many microseconds are a duration: from the least number of days up to, but not including, a day more
than the greatest.
-/
def IsHeld (micros : Int) : Prop :=
  -(maxDays * day) ≤ micros ∧ micros < (maxDays + 1) * day

instance (micros : Int) : Decidable (IsHeld micros) :=
  inferInstanceAs (Decidable (_ ∧ _))

theorem ofMicros_eq (micros : Int) :
    ofMicros micros = if IsHeld micros then .ok ⟨micros⟩ else .error ⟨(mk micros).days⟩ := by
  have hdays : (mk micros).days = micros / (day : Int) := Int.fdiv_eq_ediv_of_nonneg _ (by decide)
  have hday : (day : Int) = 86400000000 := rfl
  have hiff : IsHeld micros ↔ -maxDays ≤ (mk micros).days ∧ (mk micros).days ≤ maxDays := by
    rw [IsHeld, hdays, hday]
    unfold maxDays
    omega
  unfold ofMicros
  simp only [hiff, Bool.and_eq_true, decide_eq_true_eq]

/-- Digits are those that are left without the zeros at their end, and these zeros. -/
theorem exists_dropEndZeros (digits : List Char) :
    ∃ count, digits = dropEndZeros digits ++ List.replicate count '0' := by
  induction digits using List.reverseRecOn with
  | nil => exact ⟨0, rfl⟩
  | append_singleton digits c ih =>
      obtain ⟨count, hcount⟩ := ih
      by_cases hzero : c = '0'
      · have hdrop : dropEndZeros (digits ++ [c]) = dropEndZeros digits := by simp [dropEndZeros, hzero]
        refine ⟨count + 1, ?_⟩
        rw [hdrop, List.replicate_succ', ← List.append_assoc, ← hcount, hzero]
      · exact ⟨0, by simp [dropEndZeros, hzero]⟩

theorem mem_of_mem_dropEndZeros {digits : List Char} {c : Char} (h : c ∈ dropEndZeros digits) :
    c ∈ digits := by
  obtain ⟨count, hcount⟩ := exists_dropEndZeros digits
  rw [hcount]
  exact List.mem_append_left _ h

theorem fractionText_zero (n : Nat) : fractionText 0 n = Number.natText n := by
  simp [fractionText, Nat.mod_one]

end RuleCheck.Time.Duration
