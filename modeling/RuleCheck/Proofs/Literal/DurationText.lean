import RuleCheck.Proofs.Literal.Duration
import Mathlib.Algebra.BigOperators.Ring.Finset
import Mathlib.Algebra.Order.BigOperators.Group.List

/-! # The text of a duration is read back

The text of a duration is that of a syntax tree of one to three parts, whose numbers have as many decimal places
as they need.  Every part is a whole number of microseconds, and so is every running sum, none of them with
more digits than are kept; so the text is read as exactly what it was written for.
-/

namespace RuleCheck.Literal

open Number (Decimal28)
open Text (isDigit digitsValue)
open Time (Duration)

/-! ## Quotients -/

namespace Amount

/-- A quotient by a power of ten as it is written, without zeros at the end of its decimal places. -/
def ofQuotient (places amount : Nat) : Amount where
  whole := Nat.toDigits 10 (amount / 10 ^ places)
  fraction :=
    if amount % 10 ^ places = 0 then none
    else some (Duration.dropEndZeros (Number.paddedText places (amount % 10 ^ places)).toList)
  digits := by
    refine List.forall_mem_append.2 ⟨fun c hc => ?_, fun c hc => ?_⟩
    · exact Text.isDigit_of_isPlainDigit (Text.isPlainDigit_of_mem_toDigits hc)
    · split at hc
      · cases hc
      · have hmem := Duration.mem_of_mem_dropEndZeros hc
        exact Text.isDigit_of_isPlainDigit (Number.isPlainDigit_of_mem_paddedText hmem)
  some_digit := by simp

variable (places amount : Nat)

theorem text_ofQuotient : (ofQuotient places amount).text = (Duration.fractionText places amount).toList := by
  unfold ofQuotient text Duration.fractionText
  by_cases hwhole : amount % 10 ^ places = 0
  · simp [hwhole, Number.toList_natText]
  · simp [hwhole, Number.toList_natText]

theorem value_places_ofQuotient :
    (digitsValue (ofQuotient places amount).places : ℚ) / 10 ^ (ofQuotient places amount).places.length =
      (amount % 10 ^ places : ℕ) / 10 ^ places := by
  by_cases hwhole : amount % 10 ^ places = 0
  · have hnone : digitsValue [] = 0 := rfl
    simp [Amount.places, ofQuotient, hwhole, hnone]
  · have hless : amount % 10 ^ places < 10 ^ places := Nat.mod_lt _ (Nat.pow_pos (by decide))
    have hplaces : 0 < places := by
      rcases Nat.eq_zero_or_pos places with rfl | hpos
      · exact absurd (Nat.mod_one amount) hwhole
      · exact hpos
    have hlength := Number.length_paddedText hplaces hless
    have hvalue := Number.digitsValue_paddedText places (amount % 10 ^ places)
    obtain ⟨count, hzeros⟩ :=
      Duration.exists_dropEndZeros (Number.paddedText places (amount % 10 ^ places)).toList
    have hkept : (ofQuotient places amount).places =
        Duration.dropEndZeros (Number.paddedText places (amount % 10 ^ places)).toList := by
      simp [Amount.places, ofQuotient, hwhole]
    rw [hkept]
    generalize Duration.dropEndZeros _ = kept at hzeros
    rw [hzeros] at hlength hvalue
    rw [List.length_append, List.length_replicate] at hlength
    rw [Text.digitsValue_append, Text.digitsValue_replicate_zero, List.length_replicate, Nat.add_zero] at hvalue
    rw [← hvalue, ← hlength, pow_add]
    push_cast
    rw [mul_div_mul_right _ _ (by positivity)]

theorem value_ofQuotient : (ofQuotient places amount).value = amount / 10 ^ places := by
  have hsplit : (amount : ℚ) = 10 ^ places * (amount / 10 ^ places : ℕ) + (amount % 10 ^ places : ℕ) := by
    exact_mod_cast (Nat.div_add_mod amount (10 ^ places)).symm
  have hwhole : (digitsValue (ofQuotient places amount).whole : ℚ) = (amount / 10 ^ places : ℕ) := by
    simp [ofQuotient, Text.digitsValue_toDigits]
  rw [value, hwhole, value_places_ofQuotient, hsplit, add_div, mul_div_cancel_left₀ _ (by positivity)]

end Amount

/-! ## Parts of whole microseconds -/

namespace DurationPart

def ofQuotient (places amount : Nat) (unit : DurationUnit) : DurationPart :=
  ⟨.ofQuotient places amount, unit⟩

theorem toList_text_ofQuotient (places amount : Nat) (unit : DurationUnit) :
    (ofQuotient places amount unit).text = (Duration.fractionText places amount).toList ++ unit.text := by
  rw [text, ofQuotient, Amount.text_ofQuotient]

theorem micros_ofQuotient (places amount : Nat) (unit : DurationUnit) :
    (ofQuotient places amount unit).micros = amount / 10 ^ places * unit.micros := by
  rw [micros, ofQuotient, Amount.value_ofQuotient]

end DurationPart

namespace DurationBody

/-- Parts of whole microseconds are exact, as long as all together have few enough digits. -/
theorem exact_of_counts {body : DurationBody} {counts : List ℕ}
    (hcounts : body.list.map DurationPart.micros = counts.map (fun n : ℕ => (n : ℚ)))
    (hsum : counts.sum < 10 ^ Decimal28.precision) : body.IsShort ∧ body.micros = counts.sum := by
  have htaken (count : ℕ) : DurationPart.microsOf (body.list.take count) = ((counts.take count).sum : ℕ) := by
    rw [DurationPart.microsOf, List.map_take, hcounts, ← List.map_take, Nat.cast_list_sum]
  refine ⟨⟨fun part hpart => ?_, fun count => ?_⟩, ?_⟩
  · have hmem : part.micros ∈ counts.map (fun n : ℕ => (n : ℚ)) := by
      rw [← hcounts]
      exact List.mem_map_of_mem hpart
    obtain ⟨n, hn, hmicros⟩ := List.mem_map.1 hmem
    rw [← hmicros]
    exact Decimal28.isShort_natCast ((List.le_sum_of_mem hn).trans_lt hsum)
  · rw [htaken]
    have hpart : (counts.take count).sum ≤ counts.sum := by
      conv_rhs => rw [← List.take_append_drop count counts, List.sum_append]
      exact Nat.le_add_right _ _
    exact Decimal28.isShort_natCast (hpart.trans_lt hsum)
  · have hall := htaken body.list.length
    rw [List.take_length] at hall
    have hlength : counts.length = body.list.length := by
      simpa using (congrArg List.length hcounts).symm
    rw [micros, hall, Nat.floor_natCast, ← hlength, List.take_length]

def ofMicros (n : Nat) : DurationBody :=
  if n = 0 then .parts (.ofQuotient 0 0 .second) []
  else if n < 1000 then .parts (.ofQuotient 0 n .microsecondSign) []
  else if n < Duration.second then .parts (.ofQuotient 3 n .millisecond) []
  else
    let hours := DurationPart.ofQuotient 0 (n / Duration.hour) .hour
    let minutes := DurationPart.ofQuotient 0 (n % Duration.hour / Duration.minute) .minute
    let seconds := DurationPart.ofQuotient 6 (n % Duration.minute) .second
    if 0 < n / Duration.hour then .parts hours [minutes, seconds]
    else if 0 < n % Duration.hour / Duration.minute then .parts minutes [seconds]
    else .parts seconds []

theorem text_ofMicros (n : Nat) : (ofMicros n).text = (Duration.amountText n).toList := by
  unfold ofMicros Duration.amountText
  dsimp only
  split_ifs with hzero hmicros hmillis hhours hminutes
  case pos => rfl
  all_goals
    simp [text, DurationPart.textOf, DurationPart.toList_text_ofQuotient, Duration.fractionText_zero,
      DurationUnit.text]

/-- The whole numbers of microseconds of the parts of a number of microseconds. -/
def countsOf (n : Nat) : List Nat :=
  if n < Duration.second then [n]
  else
    let hours := n / Duration.hour * Duration.hour
    let minutes := n % Duration.hour / Duration.minute * Duration.minute
    let seconds := n % Duration.minute
    if 0 < n / Duration.hour then [hours, minutes, seconds]
    else if 0 < n % Duration.hour / Duration.minute then [minutes, seconds]
    else [seconds]

theorem sum_countsOf (n : Nat) : (countsOf n).sum = n := by
  have hclock : n / Duration.hour * Duration.hour +
      (n % Duration.hour / Duration.minute * Duration.minute + n % Duration.minute) = n := by
    have hmod : n % Duration.hour % Duration.minute = n % Duration.minute :=
      Nat.mod_mod_of_dvd n (Nat.dvd_mul_left ..)
    rw [← hmod, Nat.div_add_mod', Nat.div_add_mod']
  unfold countsOf
  dsimp only
  split_ifs with hshort hhours hminutes
  · exact List.sum_singleton
  · rwa [List.sum_cons, List.sum_cons, List.sum_singleton]
  · rw [Nat.eq_zero_of_not_pos hhours, Nat.zero_mul, Nat.zero_add] at hclock
    rwa [List.sum_cons, List.sum_singleton]
  · rw [Nat.eq_zero_of_not_pos hhours, Nat.eq_zero_of_not_pos hminutes, Nat.zero_mul, Nat.zero_add,
      Nat.zero_mul, Nat.zero_add] at hclock
    rwa [List.sum_singleton]

theorem micros_list_ofMicros (n : Nat) :
    (ofMicros n).list.map DurationPart.micros = (countsOf n).map (fun n : ℕ => (n : ℚ)) := by
  have hminute : ((Duration.minute : ℕ) : ℚ) = 60 * 1000000 := by norm_num [Duration.minute, Duration.second]
  have hhour : ((Duration.hour : ℕ) : ℚ) = 60 * 60 * 1000000 := by
    norm_num [Duration.hour, Duration.minute, Duration.second]
  have hmillis (q : ℚ) : q / 10 ^ 3 * 1000 = q := by norm_num
  have hmicros (q : ℚ) : q / 10 ^ 6 * 1000000 = q := by norm_num
  have hsmall : 1000 < Duration.second := by decide
  unfold ofMicros countsOf
  dsimp only
  split_ifs
  all_goals try omega
  all_goals simp [list, DurationPart.micros_ofQuotient, DurationUnit.micros, *]

/-- The parts of a number of microseconds are exact, and together they are that number. -/
theorem micros_ofMicros {n : Nat} (h : n < 10 ^ Decimal28.precision) :
    (ofMicros n).IsShort ∧ (ofMicros n).micros = n := by
  have hexact := exact_of_counts (micros_list_ofMicros n) (by rwa [sum_countsOf])
  rwa [sum_countsOf] at hexact

end DurationBody

def WrittenDuration.ofDuration (d : Duration) : WrittenDuration where
  sign := if d.micros < 0 then .minus else .absent
  body := .ofMicros d.micros.natAbs

namespace WrittenDuration

theorem text_ofDuration (d : Duration) : (ofDuration d).text = d.text := by
  rw [← String.toList_inj]
  unfold ofDuration text Duration.text
  rw [DurationBody.text_ofMicros]
  split_ifs <;> simp [DurationSign.text]

theorem counted_ofDuration {d : Duration} (h : d.micros.natAbs < 10 ^ Decimal28.precision) :
    (ofDuration d).counted = d.micros := by
  obtain ⟨hshort, hmicros⟩ := DurationBody.micros_ofMicros h
  rw [counted_eq_micros hshort, micros, ofDuration, hmicros]
  split_ifs <;> simp only [DurationSign.signed] <;> omega

end WrittenDuration

/-- A duration that can be held is read back from its text, and no other one is. -/
theorem readDuration_text_eq_ok_iff (d : Duration) :
    readDuration d.text = .ok d ↔ Duration.IsHeld d.micros := by
  have hread := (WrittenDuration.ofDuration d).readDuration_text
  rw [WrittenDuration.text_ofDuration, Duration.ofMicros_eq] at hread
  constructor
  · intro hok
    rw [hok] at hread
    split at hread
    · rename_i hheld
      have hmicros : d = ⟨(WrittenDuration.ofDuration d).counted⟩ := Except.ok.inj hread
      rwa [hmicros]
    · cases hread
  · intro hheld
    have hfew : d.micros.natAbs < 10 ^ Decimal28.precision := by
      have hmax : Duration.maxDays = 999999999 := rfl
      have hday : Duration.day = 86400000000 := rfl
      rw [Duration.IsHeld, hmax, hday] at hheld
      norm_num [Decimal28.precision]
      omega
    rw [hread, WrittenDuration.counted_ofDuration hfew, if_pos hheld]
    rfl

end RuleCheck.Literal
