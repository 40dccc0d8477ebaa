import RuleCheck.Proofs.Literal.Spellings

/-! # Timestamps of the long layout

A long text is split at its places, and what is split is a moment if its fields are in plain digits and in range.
So a long text is read exactly if it spells a moment; and since the short ones are, every text is.
-/

namespace RuleCheck.Literal

open Text (isDigit isPlainDigit digitsValue)
open Time (Moment)

/-! ## What is read -/

theorem LongFields.isPlain_iff (f : LongFields) : f.isPlain = true ↔
    ((∀ digits ∈ [f.year, f.month, f.day, f.hour, f.minute, f.second], ∀ c ∈ digits, isPlainDigit c = true) ∧
      ∀ c ∈ f.fraction.take 6, isPlainDigit c = true) ∧
    ∀ behind hours minutes, f.offset = some (behind, hours, minutes) →
      (∀ c ∈ hours, isPlainDigit c = true) ∧ ∀ c ∈ minutes, isPlainDigit c = true := by
  rw [isPlain, Bool.and_eq_true]
  refine and_congr ?_ ?_
  · simp only [List.all_append, Bool.and_eq_true, List.all_eq_true, List.forall_mem_cons, List.not_mem_nil,
      false_implies, implies_true, and_true, and_assoc]
  · cases f.offset with
    | none => simp
    | some offset =>
        obtain ⟨behind, hours, minutes⟩ := offset
        simp only [List.all_append, Bool.and_eq_true, List.all_eq_true, Option.some.injEq, Prod.mk.injEq]
        refine ⟨?_, fun h => h behind hours minutes ⟨rfl, rfl, rfl⟩⟩
        rintro h _ _ _ ⟨rfl, rfl, rfl⟩
        exact h

theorem LongFields.moment_eq_ok_iff (f : LongFields) (m : Moment) : f.moment = .ok m ↔
    f.offsetSeconds.natAbs < 86400 ∧ 1 ≤ digitsValue f.year ∧
    (1 ≤ digitsValue f.month ∧ digitsValue f.month ≤ 12) ∧
    (1 ≤ digitsValue f.day ∧ digitsValue f.day ≤ Time.monthDays (digitsValue f.year) (digitsValue f.month)) ∧
    digitsValue f.hour < 24 ∧ digitsValue f.minute < 60 ∧ digitsValue f.second < 60 ∧
    m = ⟨digitsValue f.year, digitsValue f.month, digitsValue f.day, digitsValue f.hour, digitsValue f.minute,
      digitsValue f.second, fractionMicros f.fraction, some f.offsetSeconds⟩ := by
  unfold moment
  dsimp only
  constructor
  · intro h
    split at h; · cases h
    split at h; · cases h
    split at h; · cases h
    split at h; · cases h
    split at h; · cases h
    split at h; · cases h
    split at h; · cases h
    rename_i hoffset hyear hmonth hday hhour hminute hsecond
    cases h
    simp only [Bool.or_eq_true, decide_eq_true_eq] at hmonth hday
    exact ⟨by omega, by omega, by omega, by omega, by omega, by omega, by omega, rfl⟩
  · rintro ⟨hoffset, hyear, hmonth, hday, hhour, hminute, hsecond, rfl⟩
    rw [if_neg (by omega), if_neg (by omega), if_neg (by simp; omega), if_neg (by simp; omega),
      if_neg (by omega), if_neg (by omega), if_neg (by omega)]

/-- What ends the long layout with an offset in plain digits, of less than a day, spells that offset. -/
theorem spellsOffset_of_splitOffset? {rest : List Char} {f : LongFields} (h : splitOffset? rest = some f.offset)
    (hplain : ∀ behind hours minutes, f.offset = some (behind, hours, minutes) →
      (∀ c ∈ hours, isPlainDigit c = true) ∧ ∀ c ∈ minutes, isPlainDigit c = true)
    (hday : f.offsetSeconds.natAbs < 86400) : SpellsOffset rest f.offsetSeconds := by
  unfold LongFields.offsetSeconds at hday ⊢
  generalize f.offset = offset at h hplain hday ⊢
  unfold splitOffset? at h
  split at h
  · cases h
    exact .universal
  · rename_i sign h₁ h₂ m₁ m₂
    split at h
    · rename_i hread
      cases h
      obtain ⟨hhours, hminutes⟩ := hplain _ _ _ rfl
      rw [Bool.and_eq_true, Bool.or_eq_true, beq_iff_eq, beq_iff_eq] at hread
      have hsign : sign = if (sign == '-') = true then '-' else '+' := by
        rcases hread.1 with rfl | rfl <;> decide
      have hamount : 3600 * digitsValue [h₁, h₂] + 60 * digitsValue [m₁, m₂] < 86400 := by
        dsimp only at hday
        split at hday
        · rwa [Int.natAbs_neg] at hday
        · exact hday
      have hspells := SpellsOffset.shifted (sign == '-') ⟨hhours, rfl⟩ ⟨hminutes, rfl⟩ hamount
      rwa [← hsign] at hspells
    · cases h
  · cases h

/-- What is split as the long layout has digits at its places, and an offset after the fraction. -/
theorem exists_of_splitLong? {s : List Char} {f : LongFields} (h : splitLong? s = some f) :
    ∃ y₁ y₂ y₃ y₄ m₁ m₂ d₁ d₂ h₁ h₂ n₁ n₂ s₁ s₂ fraction rest,
      s = y₁ :: y₂ :: y₃ :: y₄ :: '-' :: m₁ :: m₂ :: '-' :: d₁ :: d₂ :: 'T' :: h₁ :: h₂ :: ':' ::
        n₁ :: n₂ :: ':' :: s₁ :: s₂ :: (fraction ++ rest) ∧
      f = ⟨[y₁, y₂, y₃, y₄], [m₁, m₂], [d₁, d₂], [h₁, h₂], [n₁, n₂], [s₁, s₂], f.fraction, f.offset⟩ ∧
      ((∀ c ∈ f.fraction.take 6, isPlainDigit c = true) → SpellsFraction fraction f.fraction) ∧
      splitOffset? rest = some f.offset := by
  unfold splitLong? at h
  split at h
  · rename_i y₁ y₂ y₃ y₄ m₁ m₂ d₁ d₂ h₁ h₂ n₁ n₂ s₁ s₂ tail
    split at h
    · split at h
      rename_i fraction rest hsplit
      dsimp only at h
      split at h
      · cases h
      · rename_i hpoint
        obtain ⟨offset, hoffset, rfl⟩ := Option.map_eq_some_iff.1 h
        split at hsplit
        · rename_i digits
          cases hsplit
          refine ⟨y₁, y₂, y₃, y₄, m₁, m₂, d₁, d₂, h₁, h₂, n₁, n₂, s₁, s₂, '.' :: digits.takeWhile isDigit,
            digits.dropWhile isDigit, by simp, rfl, fun hplain => .point ?_ ?_ hplain, hoffset⟩
          · simpa using hpoint
          · exact List.all_eq_true.1 List.all_takeWhile
        · cases hsplit
          exact ⟨y₁, y₂, y₃, y₄, m₁, m₂, d₁, d₂, h₁, h₂, n₁, n₂, s₁, s₂, [], tail, rfl, rfl,
            fun _ => .none, hoffset⟩
    · cases h
  · cases h

theorem spells_of_splitLong? {s : List Char} {f : LongFields} {m : Moment} (h : splitLong? s = some f)
    (hplain : f.isPlain = true) (hmoment : f.moment = .ok m) : Spells s m := by
  obtain ⟨⟨hfields, hsix⟩, hshift⟩ := f.isPlain_iff.1 hplain
  obtain ⟨hoffset, hyear, hmonth, hday, hhour, hminute, hsecond, rfl⟩ := (f.moment_eq_ok_iff _).1 hmoment
  obtain ⟨y₁, y₂, y₃, y₄, m₁, m₂, d₁, d₂, h₁, h₂, n₁, n₂, s₁, s₂, fraction, rest, rfl, hf, hfraction, hrest⟩ :=
    exists_of_splitLong? h
  have hspells := spellsOffset_of_splitOffset? hrest hshift hoffset
  generalize f.offsetSeconds = offset at hspells ⊢
  generalize f.fraction = digits, f.offset = shift at hf hfraction hsix
  subst hf
  have hfield (digits : List Char) (h : digits ∈ _) : IsField digits (digitsValue digits) :=
    ⟨hfields digits h, rfl⟩
  let date : Date := ⟨digitsValue [y₁, y₂, y₃, y₄], digitsValue [m₁, m₂], digitsValue [d₁, d₂],
    ⟨hyear, year_le y₁ y₂ y₃ y₄⟩, hmonth, hday⟩
  let time : ClockTime := ⟨⟨digitsValue [h₁, h₂], hhour⟩, ⟨digitsValue [n₁, n₂], hminute⟩,
    ⟨digitsValue [s₁, s₂], hsecond⟩⟩
  have hdate := date.toList_text (hfield [y₁, y₂, y₃, y₄] (by simp)) (hfield [m₁, m₂] (by simp))
    (hfield [d₁, d₂] (by simp))
  have htime := time.toList_text (hfield [h₁, h₂] (by simp)) (hfield [n₁, n₂] (by simp))
    (hfield [s₁, s₂] (by simp))
  have hlong : Spells _ (date.moment time (fractionMicros digits) offset) := .long (hfraction hsix) hspells
  rw [String.toList_append, String.toList_append, hdate, htime] at hlong
  exact hlong

/-! ## Every spelling is read -/

theorem SpellsOffset.splitOffset? {rest : List Char} {offset : Int} (h : SpellsOffset rest offset) :
    ∃ shift, splitOffset? rest = some shift ∧ offset.natAbs < 86400 ∧
      (∃ c tail, rest = c :: tail ∧ isDigit c = false ∧ c ≠ '.') ∧
      ∀ f : LongFields, f.offset = shift → f.offsetSeconds = offset ∧
        ∀ behind hours minutes, f.offset = some (behind, hours, minutes) →
          (∀ c ∈ hours, isPlainDigit c = true) ∧ ∀ c ∈ minutes, isPlainDigit c = true := by
  cases h with
  | universal =>
      refine ⟨none, rfl, by decide, ⟨'Z', [], rfl, by decide +kernel, by decide⟩, fun f hf => ?_⟩
      simp [LongFields.offsetSeconds, hf]
  | @shifted behind h₁ h₂ m₁ m₂ hours minutes hhours hminutes hday =>
      have hsplit : Literal.splitOffset? [if behind then '-' else '+', h₁, h₂, ':', m₁, m₂] =
          some (some (behind, [h₁, h₂], [m₁, m₂])) := by
        have hdigits : ([h₁, h₂] ++ [m₁, m₂]).all isDigit = true := by
          rw [List.all_append, hhours.all_isDigit, hminutes.all_isDigit, Bool.and_self]
        cases behind <;> simpa [Literal.splitOffset?] using hdigits
      refine ⟨_, hsplit, ?_, ⟨_, _, rfl, ?_, ?_⟩, fun f hf => ⟨?_, ?_⟩⟩
      · split
        · rw [Int.natAbs_neg]
          exact hday
        · exact hday
      · cases behind <;> decide +kernel
      · cases behind <;> decide
      · simp [LongFields.offsetSeconds, hf, hhours.value, hminutes.value]
      · rw [hf]
        rintro _ _ _ ⟨⟩
        exact ⟨hhours.plain, hminutes.plain⟩

/-- Digits at the places of a long text, a fraction and an offset are its fields. -/
theorem splitLong?_of_tail {y₁ y₂ y₃ y₄ m₁ m₂ d₁ d₂ h₁ h₂ n₁ n₂ s₁ s₂ c : Char}
    {fraction digits tail : List Char} {shift : Option (Bool × List Char × List Char)}
    (hdigits : [y₁, y₂, y₃, y₄, m₁, m₂, d₁, d₂, h₁, h₂, n₁, n₂, s₁, s₂].all isDigit = true)
    (hfraction : SpellsFraction fraction digits) (hend : isDigit c = false) (hpoint : c ≠ '.')
    (hshift : splitOffset? (c :: tail) = some shift) :
    splitLong? (y₁ :: y₂ :: y₃ :: y₄ :: '-' :: m₁ :: m₂ :: '-' :: d₁ :: d₂ :: 'T' :: h₁ :: h₂ :: ':' ::
        n₁ :: n₂ :: ':' :: s₁ :: s₂ :: (fraction ++ c :: tail)) =
      some ⟨[y₁, y₂, y₃, y₄], [m₁, m₂], [d₁, d₂], [h₁, h₂], [n₁, n₂], [s₁, s₂], digits, shift⟩ := by
  simp only [splitLong?, hdigits, if_true]
  cases hfraction with
  | none => simp [hpoint, hshift]
  | point hne hdigits _ =>
      have hrest : ∀ d ∈ (c :: tail).head?, isDigit d = false := by simpa using hend
      have hspan := Text.span_isDigit hdigits hrest
      simp [hspan, hne, hshift]

/-- Fields in plain digits of a date and a time, with an offset of less than a day, are a moment. -/
theorem LongFields.moment_of_fields {f : LongFields} {date : Date} {time : ClockTime}
    (hyear : IsField f.year date.year) (hmonth : IsField f.month date.month) (hday : IsField f.day date.day)
    (hhour : IsField f.hour time.hour) (hminute : IsField f.minute time.minute)
    (hsecond : IsField f.second time.second) (hsix : ∀ c ∈ f.fraction.take 6, isPlainDigit c = true)
    (hshift : ∀ behind hours minutes, f.offset = some (behind, hours, minutes) →
      (∀ c ∈ hours, isPlainDigit c = true) ∧ ∀ c ∈ minutes, isPlainDigit c = true)
    (hoffset : f.offsetSeconds.natAbs < 86400) :
    f.isPlain = true ∧ f.moment = .ok (date.moment time (fractionMicros f.fraction) f.offsetSeconds) := by
  constructor
  · refine f.isPlain_iff.2 ⟨⟨?_, hsix⟩, hshift⟩
    intro digits hmem
    simp only [List.mem_cons, List.not_mem_nil, or_false] at hmem
    rcases hmem with rfl | rfl | rfl | rfl | rfl | rfl
    exacts [hyear.plain, hmonth.plain, hday.plain, hhour.plain, hminute.plain, hsecond.plain]
  · rw [f.moment_eq_ok_iff, hyear.value, hmonth.value, hday.value, hhour.value, hminute.value, hsecond.value]
    exact ⟨hoffset, date.year_in_range.1, date.month_in_range, date.day_in_range, time.hour.isLt,
      time.minute.isLt, time.second.isLt, rfl⟩

theorem SpellsFraction.plain {fraction digits : List Char} (h : SpellsFraction fraction digits) :
    ∀ c ∈ digits.take 6, isPlainDigit c = true := by
  cases h with
  | none => simp
  | point _ _ hsix => exact hsix

theorem readMoment_of_long {text : String} {date : Date} {time : ClockTime} {fraction digits rest : List Char}
    {offset : Int} (hfraction : SpellsFraction fraction digits) (hoffset : SpellsOffset rest offset)
    (htext : text.toList = (date.text ++ "T" ++ time.text).toList ++ fraction ++ rest) :
    readMoment text = .ok (date.moment time (fractionMicros digits) offset) := by
  obtain ⟨y₁, y₂, y₃, y₄, m₁, m₂, d₁, d₂, hdate, hyear, hmonth, hday⟩ := date.exists_letters
  obtain ⟨h₁, h₂, n₁, n₂, s₁, s₂, htime, hhour, hminute, hsecond⟩ := time.exists_letters
  obtain ⟨shift, hshift, hamount, ⟨c, tail, rfl, hend, hpoint⟩, hfields⟩ := hoffset.splitOffset?
  have hdigits : ([y₁, y₂, y₃, y₄] ++ [m₁, m₂] ++ [d₁, d₂] ++ [h₁, h₂] ++ [n₁, n₂] ++ [s₁, s₂]).all isDigit =
      true := by
    simp only [List.all_append, hyear.all_isDigit, hmonth.all_isDigit, hday.all_isDigit, hhour.all_isDigit,
      hminute.all_isDigit, hsecond.all_isDigit, Bool.and_self]
  have hsplit := splitLong?_of_tail hdigits hfraction hend hpoint hshift
  have hletters : text.toList = y₁ :: y₂ :: y₃ :: y₄ :: '-' :: m₁ :: m₂ :: '-' :: d₁ :: d₂ :: 'T' :: h₁ :: h₂ ::
      ':' :: n₁ :: n₂ :: ':' :: s₁ :: s₂ :: (fraction ++ c :: tail) := by
    simp [htext, hdate, htime]
  have hlong : ¬ text.toList.length < 20 := by
    rw [hletters]
    simp only [List.length_cons, List.length_append]
    omega
  let f : LongFields := ⟨[y₁, y₂, y₃, y₄], [m₁, m₂], [d₁, d₂], [h₁, h₂], [n₁, n₂], [s₁, s₂], digits, shift⟩
  obtain ⟨hseconds, hplains⟩ := hfields f rfl
  obtain ⟨hplain, hmoment⟩ := LongFields.moment_of_fields (f := f) hyear hmonth hday hhour hminute hsecond
    hfraction.plain hplains (by rwa [hseconds])
  rw [hseconds] at hmoment
  rw [readMoment, if_neg (by simp [hletters]), if_neg hlong, hletters, hsplit]
  dsimp only
  rw [if_pos hplain, hmoment]

theorem readMoment_eq_ok_iff (text : String) (m : Moment) : readMoment text = .ok m ↔ Spells text.toList m := by
  constructor
  · intro h
    unfold readMoment at h
    dsimp only at h
    split at h
    · rename_i hempty
      cases h
      rw [List.isEmpty_iff.1 hempty]
      exact .zero
    · split at h
      · split at h
        · rename_i hread
          cases h
          exact spells_of_readShort? hread
        · cases h
      · split at h
        · cases h
        · rename_i hsplit
          split at h
          · rename_i hplain
            exact spells_of_splitLong? hsplit hplain h
          · cases h
  · intro h
    generalize hs : text.toList = s at h
    cases h with
    | zero => simp [readMoment, hs]
    | day hdate => exact readMoment_of_readShort? (hs ▸ readShort?_of_day hdate)
    | joined hdate htime => exact readMoment_of_readShort? (hs ▸ readShort?_of_joined hdate htime)
    | spaced hdate htime => exact readMoment_of_readShort? (hs ▸ readShort?_of_spaced hdate htime)
    | long hfraction hoffset => exact readMoment_of_long hfraction hoffset hs

end RuleCheck.Literal
