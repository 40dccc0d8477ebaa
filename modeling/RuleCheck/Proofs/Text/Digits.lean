import RuleCheck.Number.DecimalText
import RuleCheck.Text.Digit
import Mathlib.Data.List.Induction
import Mathlib.Tactic.Ring

/-! # Numbers in decimal digits

The value of digits is that of their front, moved up by the places that follow, and that of the rest.  So a
number that is written in digits, with zeros in front or without, is read back from them.
-/

namespace RuleCheck

namespace Text

/-! ## Single digits -/

theorem isPlainDigit_eq_isDigit (c : Char) : isPlainDigit c = c.isDigit := by
  simp only [isPlainDigit, Char.isDigit, ge_iff_le, UInt32.le_iff_toNat_le]
  rfl

theorem digitValue?_of_isPlainDigit {c : Char} (h : isPlainDigit c = true) :
    digitValue? c = some (c.toNat - 48) := by
  simp only [isPlainDigit, Bool.and_eq_true, decide_eq_true_eq] at h
  have hfirst : 48 ≤ c.toNat ∧ c.toNat < 48 + 10 := by omega
  simp [digitValue?, zeroDigits, hfirst]

theorem isDigit_of_isPlainDigit {c : Char} (h : isPlainDigit c = true) : isDigit c = true := by
  simp [isDigit, digitValue?_of_isPlainDigit h]

theorem exists_digitChar_of_isPlainDigit {c : Char} (h : isPlainDigit c = true) :
    ∃ i : Fin 10, c = Nat.digitChar i := by
  simp only [isPlainDigit, Bool.and_eq_true, decide_eq_true_eq] at h
  refine ⟨⟨c.toNat - 48, by omega⟩, Char.toNat_inj.1 ?_⟩
  show c.toNat = (Nat.digitChar (c.toNat - 48)).toNat
  rw [Nat.toNat_digitChar_of_lt_ten (by omega)]
  omega

/-- Digits end where something else starts. -/
theorem span_isDigit {digits rest : List Char} (hdigits : ∀ c ∈ digits, isDigit c = true)
    (hrest : ∀ c ∈ rest.head?, isDigit c = false) :
    (digits ++ rest).takeWhile isDigit = digits ∧ (digits ++ rest).dropWhile isDigit = rest := by
  rw [List.takeWhile_append_of_pos hdigits, List.dropWhile_append_of_pos hdigits]
  cases rest with
  | nil => simp
  | cons c rest =>
      have hstop : isDigit c = false := hrest c (by simp)
      simp [hstop]

/-! ## The value of digits -/

theorem digitsValue_concat (digits : List Char) (c : Char) :
    digitsValue (digits ++ [c]) = 10 * digitsValue digits + (digitValue? c).getD 0 := by
  simp [digitsValue, List.foldl_append]

theorem digitsValue_append (front digits : List Char) :
    digitsValue (front ++ digits) = digitsValue front * 10 ^ digits.length + digitsValue digits := by
  induction digits using List.reverseRecOn with
  | nil => simp [digitsValue]
  | append_singleton digits c ih =>
      rw [← List.append_assoc, digitsValue_concat, digitsValue_concat, ih, List.length_append,
        List.length_singleton, Nat.pow_succ]
      ring

theorem digitsValue_lt (digits : List Char) : digitsValue digits < 10 ^ digits.length := by
  induction digits using List.reverseRecOn with
  | nil => simp [digitsValue]
  | append_singleton digits c ih =>
      have hdigit : (digitValue? c).getD 0 < 10 := by
        cases hvalue : digitValue? c with
        | none => decide
        | some d => exact digitValue?_lt hvalue
      rw [digitsValue_concat, List.length_append, List.length_singleton, Nat.pow_succ]
      omega

/-- Digits with others after them have the value that is left when the others are divided off. -/
theorem digitsValue_div (front digits : List Char) :
    digitsValue (front ++ digits) / 10 ^ digits.length = digitsValue front := by
  rw [digitsValue_append, Nat.mul_comm, Nat.mul_add_div (Nat.pow_pos (by decide)),
    Nat.div_eq_of_lt (digitsValue_lt digits), Nat.add_zero]

theorem digitsValue_replicate_zero (count : Nat) : digitsValue (List.replicate count '0') = 0 := by
  induction count with
  | zero => rfl
  | succ count ih =>
      rw [List.replicate_succ', digitsValue_concat, ih]
      rfl

/-! ## Written numbers -/

theorem isPlainDigit_of_mem_toDigits {n : Nat} {c : Char} (h : c ∈ Nat.toDigits 10 n) :
    isPlainDigit c = true := by
  rw [isPlainDigit_eq_isDigit]
  exact Nat.isDigit_of_mem_toDigits (by decide) (by decide) h

theorem digitsValue_toDigits (n : Nat) : digitsValue (Nat.toDigits 10 n) = n := by
  have hplain (digits : List Char) (h : ∀ c ∈ digits, isPlainDigit c = true) :
      digitsValue digits = Nat.ofDigitChars 10 digits 0 := by
    induction digits using List.reverseRecOn with
    | nil => simp [digitsValue]
    | append_singleton digits c ih =>
        rw [List.forall_mem_append, List.forall_mem_singleton] at h
        rw [digitsValue_concat, Nat.ofDigitChars_append, ih h.1, Nat.ofDigitChars_cons,
          Nat.ofDigitChars_nil, digitValue?_of_isPlainDigit h.2]
        rfl
  rw [hplain _ fun c => isPlainDigit_of_mem_toDigits, Nat.ofDigitChars_ten_toDigits]

end Text

namespace Number

open Text (isPlainDigit digitsValue)

variable {width n : Nat}

theorem toList_natText : (natText n).toList = Nat.toDigits 10 n := String.toList_ofList

theorem toList_paddedText : (paddedText width n).toList =
    List.replicate (width - (Nat.toDigits 10 n).length) '0' ++ Nat.toDigits 10 n := String.toList_ofList

theorem isPlainDigit_of_mem_paddedText {c : Char} (h : c ∈ (paddedText width n).toList) :
    isPlainDigit c = true := by
  rw [toList_paddedText] at h
  rcases List.mem_append.1 h with hzero | hdigit
  · rw [List.eq_of_mem_replicate hzero]
    rfl
  · exact Text.isPlainDigit_of_mem_toDigits hdigit

theorem digitsValue_paddedText (width n : Nat) : digitsValue (paddedText width n).toList = n := by
  rw [toList_paddedText, Text.digitsValue_append, Text.digitsValue_replicate_zero,
    Text.digitsValue_toDigits, Nat.zero_mul, Nat.zero_add]

theorem length_paddedText (hwidth : 0 < width) (h : n < 10 ^ width) :
    (paddedText width n).toList.length = width := by
  have hlength := (Nat.length_toDigits_le_iff (by decide) hwidth).2 h
  rw [toList_paddedText, List.length_append, List.length_replicate, Nat.sub_add_cancel hlength]

end Number

end RuleCheck
