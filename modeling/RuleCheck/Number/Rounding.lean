/-!
# Rounding quotients to whole numbers

`roundHalfEven` rounds a quotient of natural numbers to the nearest whole number and an exact half
to the even neighbour.  The two laws below determine it: the result is at most half a unit away,
and it is even where it is exactly half a unit away.
-/

namespace RuleCheck.Number

/-- The quotient rounded to the nearest whole number, a half to the even neighbour. -/
def roundHalfEven (num den : Nat) : Nat :=
  let q := num / den
  let r := num % den
  if 2 * r < den then q
  else if den < 2 * r then q + 1
  else if q % 2 = 0 then q
  else q + 1

/-- The rounded quotient is at most half a unit away from the exact one. -/
theorem roundHalfEven_near (num : Nat) {den : Nat} (hden : 0 < den) :
    2 * num ≤ 2 * den * roundHalfEven num den + den ∧
      2 * den * roundHalfEven num den ≤ 2 * num + den := by
  have hsplit : den * (num / den) + num % den = num := Nat.div_add_mod num den
  have hlt : num % den < den := Nat.mod_lt num hden
  have hassoc : 2 * den * (num / den) = 2 * (den * (num / den)) := Nat.mul_assoc 2 den _
  have hstep : 2 * den * (num / den + 1) = 2 * (den * (num / den)) + 2 * den := by
    rw [Nat.mul_add, hassoc, Nat.mul_one]
  unfold roundHalfEven
  simp only
  split
  · rw [hassoc]; omega
  · split
    · rw [hstep]; omega
    · split
      · rw [hassoc]; omega
      · rw [hstep]; omega

theorem roundHalfEven_tie {num den : Nat} (hhalf : 2 * (num % den) = den) :
    roundHalfEven num den % 2 = 0 := by
  have hlow : ¬ 2 * (num % den) < den := by omega
  have hhigh : ¬ den < 2 * (num % den) := by omega
  unfold roundHalfEven
  simp only [hlow, hhigh, if_false]
  split <;> omega

example : [1, 3, 5, 7].map (roundHalfEven · 2) = [0, 2, 2, 4] := by decide

end RuleCheck.Number
