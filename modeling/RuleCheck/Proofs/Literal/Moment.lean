import RuleCheck.Literal.Moment
import RuleCheck.Proofs.Text.Digits

/-! # Well-formed timestamps

A timestamp that is written with zeros in front and in plain digits is read as the moment that it is of, in
each of the layouts: every field stands at its place, and the readers of the fields agree with the value of
their digits wherever that is in range.
-/

namespace RuleCheck.Literal

open Number (paddedText)
open Text (isDigit isPlainDigit digitsValue)
open Time (Moment)

/-! ## Fields -/

structure IsField (digits : List Char) (n : Nat) : Prop where
  plain : ∀ c ∈ digits, isPlainDigit c = true
  value : digitsValue digits = n

theorem isField_paddedText (width n : Nat) : IsField (paddedText width n).toList n :=
  ⟨fun _ => Number.isPlainDigit_of_mem_paddedText, Number.digitsValue_paddedText width n⟩

theorem exists_two_digits {n : Nat} (h : n < 100) :
    ∃ t d, (paddedText 2 n).toList = [t, d] ∧ IsField [t, d] n := by
  have hfield := isField_paddedText 2 n
  match hdigits : (paddedText 2 n).toList, Number.length_paddedText (by decide) h with
  | [t, d], _ => exact ⟨t, d, rfl, hdigits ▸ hfield⟩

theorem exists_four_digits {n : Nat} (h : n < 10000) :
    ∃ a b c d, (paddedText 4 n).toList = [a, b, c, d] ∧ IsField [a, b, c, d] n := by
  have hfield := isField_paddedText 4 n
  match hdigits : (paddedText 4 n).toList, Number.length_paddedText (by decide) h with
  | [a, b, c, d], _ => exact ⟨a, b, c, d, rfl, hdigits ▸ hfield⟩

namespace IsField

theorem all_isDigit {digits : List Char} {n : Nat} (h : IsField digits n) : digits.all isDigit = true :=
  List.all_eq_true.2 fun c hc => Text.isDigit_of_isPlainDigit (h.plain c hc)

theorem all_isPlainDigit {digits : List Char} {n : Nat} (h : IsField digits n) :
    digits.all isPlainDigit = true :=
  List.all_eq_true.2 h.plain

theorem exists_digits {t d : Char} {n : Nat} (h : IsField [t, d] n) :
    ∃ i j : Fin 10, t = Nat.digitChar i ∧ d = Nat.digitChar j ∧ n = 10 * i + j := by
  have hvalue (i j : Fin 10) : digitsValue [Nat.digitChar i, Nat.digitChar j] = 10 * i + j := by
    revert i j
    decide
  obtain ⟨i, rfl⟩ := Text.exists_digitChar_of_isPlainDigit (h.plain t (by simp))
  obtain ⟨j, rfl⟩ := Text.exists_digitChar_of_isPlainDigit (h.plain d (by simp))
  exact ⟨i, j, rfl, rfl, by rw [← h.value, hvalue]⟩

theorem readYear?_eq {digits : List Char} {n : Nat} (h : IsField digits n) : readYear? digits = some n := by
  rw [readYear?, if_pos h.all_isDigit, h.value]

variable {t d : Char} {n : Nat}

theorem read_eq {low high : Nat} {read : Char → Char → Option Nat} (h : IsField [t, d] n)
    (hn : low ≤ n ∧ n ≤ high)
    (hread : ∀ i j : Fin 10, low ≤ 10 * i.val + j.val ∧ 10 * i.val + j.val ≤ high →
      read (Nat.digitChar i) (Nat.digitChar j) = some (10 * i.val + j.val)) :
    read t d = some n := by
  obtain ⟨i, j, rfl, rfl, rfl⟩ := h.exists_digits
  exact hread i j hn

theorem readMonth?_eq (h : IsField [t, d] n) (hn : 1 ≤ n ∧ n ≤ 12) : readMonth? t d = some n :=
  h.read_eq hn (by decide)

theorem readDay?_eq (h : IsField [t, d] n) (hn : 1 ≤ n ∧ n ≤ 31) : readDay? t d = some n :=
  h.read_eq hn (by decide)

theorem readDayBeforeBlank?_eq (h : IsField [t, d] n) (hn : 1 ≤ n ∧ n ≤ 31) :
    readDayBeforeBlank? t d = some n := by
  rw [readDayBeforeBlank?, h.readDay?_eq hn]

theorem readHour?_eq (h : IsField [t, d] n) (hn : n < 24) : readHour? t d = some n :=
  h.read_eq ⟨Nat.zero_le n, Nat.le_of_lt_succ hn⟩ (by decide)

theorem readHourAfterBlank?_eq (h : IsField [t, d] n) (hn : n < 24) : readHourAfterBlank? t d = some n := by
  rw [readHourAfterBlank?, h.readHour?_eq hn]

theorem readSixty?_eq (h : IsField [t, d] n) (hn : n < 60) : readSixty? t d = some n :=
  h.read_eq ⟨Nat.zero_le n, Nat.le_of_lt_succ hn⟩ (by decide)

end IsField

/-! ## Dates and clock times -/

structure Date where
  year : Nat
  month : Nat
  day : Nat
  year_in_range : 1 ≤ year ∧ year ≤ 9999
  month_in_range : 1 ≤ month ∧ month ≤ 12
  day_in_range : 1 ≤ day ∧ day ≤ Time.monthDays year month

structure ClockTime where
  hour : Fin 24
  minute : Fin 60
  second : Fin 60

namespace Date

variable (date : Date)

def text : String :=
  paddedText 4 date.year ++ "-" ++ paddedText 2 date.month ++ "-" ++ paddedText 2 date.day

def moment (time : ClockTime) (micro : Nat) (offset : Int) : Moment :=
  ⟨date.year, date.month, date.day, time.hour, time.minute, time.second, micro, some offset⟩

theorem day_le : date.day ≤ 31 := by
  have hmonth : Time.monthDays date.year date.month ≤ 31 := by
    unfold Time.monthDays
    split <;> (try split) <;> decide
  exact date.day_in_range.2.trans hmonth

theorem exists_letters : ∃ y₁ y₂ y₃ y₄ m₁ m₂ d₁ d₂,
    date.text.toList = [y₁, y₂, y₃, y₄, '-', m₁, m₂, '-', d₁, d₂] ∧
      IsField [y₁, y₂, y₃, y₄] date.year ∧ IsField [m₁, m₂] date.month ∧ IsField [d₁, d₂] date.day := by
  obtain ⟨y₁, y₂, y₃, y₄, hyear, hyears⟩ := exists_four_digits (Nat.lt_succ_of_le date.year_in_range.2)
  obtain ⟨m₁, m₂, hmonth, hmonths⟩ :=
    exists_two_digits (date.month_in_range.2.trans_lt (show 12 < 100 by decide))
  obtain ⟨d₁, d₂, hday, hdays⟩ := exists_two_digits (date.day_le.trans_lt (show 31 < 100 by decide))
  exact ⟨y₁, y₂, y₃, y₄, m₁, m₂, d₁, d₂, by simp [text, hyear, hmonth, hday], hyears, hmonths, hdays⟩

theorem universalMoment?_eq (time : ClockTime) :
    universalMoment? date.year date.month date.day time.hour time.minute time.second =
      some (date.moment time 0 0) := by
  simp [universalMoment?, moment, date.year_in_range.1, date.day_in_range.2]

end Date

namespace ClockTime

def midnight : ClockTime := ⟨0, 0, 0⟩

variable (time : ClockTime)

def text : String :=
  paddedText 2 time.hour ++ ":" ++ paddedText 2 time.minute ++ ":" ++ paddedText 2 time.second

theorem exists_letters : ∃ h₁ h₂ n₁ n₂ s₁ s₂, time.text.toList = [h₁, h₂, ':', n₁, n₂, ':', s₁, s₂] ∧
    IsField [h₁, h₂] time.hour ∧ IsField [n₁, n₂] time.minute ∧ IsField [s₁, s₂] time.second := by
  have hbelow {m : Nat} (n : Fin m) (hm : m ≤ 100) : n.val < 100 := n.isLt.trans_le hm
  obtain ⟨h₁, h₂, hhour, hhours⟩ := exists_two_digits (hbelow time.hour (by decide))
  obtain ⟨n₁, n₂, hminute, hminutes⟩ := exists_two_digits (hbelow time.minute (by decide))
  obtain ⟨s₁, s₂, hsecond, hseconds⟩ := exists_two_digits (hbelow time.second (by decide))
  exact ⟨h₁, h₂, n₁, n₂, s₁, s₂, by simp [text, hhour, hminute, hsecond], hhours, hminutes, hseconds⟩

end ClockTime

/-! ## Fractions and offsets -/

/-- The digits after a point. -/
structure SecondFraction where
  digits : List Char
  plain : ∀ c ∈ digits, isPlainDigit c = true
  some_digit : digits ≠ []

namespace SecondFraction

def micros (fraction : SecondFraction) : Nat :=
  digitsValue fraction.digits * 10 ^ 6 / 10 ^ fraction.digits.length

theorem fractionMicros_digits (fraction : SecondFraction) :
    fractionMicros fraction.digits = fraction.micros := by
  unfold fractionMicros micros
  generalize fraction.digits = digits
  dsimp only
  rcases Nat.le_total digits.length 6 with hshort | hlong
  · have hpower : 10 ^ 6 = 10 ^ (6 - digits.length) * 10 ^ digits.length := by
      rw [← Nat.pow_add, Nat.sub_add_cancel hshort]
    rw [List.take_of_length_le hshort, hpower, ← Nat.mul_assoc,
      Nat.mul_div_cancel _ (Nat.pow_pos (by decide)), Nat.pow_eq]
  · have hsplit := List.take_append_drop 6 digits
    have hfirst : (digits.take 6).length = 6 := List.length_take_of_le hlong
    generalize digits.take 6 = first at hfirst hsplit ⊢
    generalize digits.drop 6 = rest at hsplit
    subst hsplit
    rw [hfirst, Nat.sub_self, Nat.pow_eq, Nat.pow_zero, Nat.mul_one, List.length_append, hfirst,
      Nat.pow_add, Nat.mul_comm (10 ^ 6) (10 ^ rest.length),
      Nat.mul_div_mul_right _ _ (Nat.pow_pos (by decide)), Text.digitsValue_div]

def textOf : Option SecondFraction → String
  | none => ""
  | some fraction => "." ++ String.ofList fraction.digits

def digitsOf (fraction : Option SecondFraction) : List Char :=
  fraction.elim [] digits

def microsOf (fraction : Option SecondFraction) : Nat :=
  fraction.elim 0 micros

theorem fractionMicros_digitsOf (fraction : Option SecondFraction) :
    fractionMicros (digitsOf fraction) = microsOf fraction := by
  cases fraction with
  | none => rfl
  | some fraction => exact fraction.fractionMicros_digits

theorem isPlainDigit_of_mem_digitsOf {fraction : Option SecondFraction} {c : Char}
    (h : c ∈ digitsOf fraction) : isPlainDigit c = true := by
  cases fraction with
  | none => cases h
  | some fraction => exact fraction.plain c h

end SecondFraction

/-- An offset from universal time as it is written. -/
inductive WrittenOffset where
  | universal
  | shifted (behind : Bool) (hours : Fin 24) (minutes : Fin 60)

namespace WrittenOffset

def text : WrittenOffset → String
  | universal => "Z"
  | shifted behind hours minutes =>
      (if behind then "-" else "+") ++ paddedText 2 hours ++ ":" ++ paddedText 2 minutes

def seconds : WrittenOffset → Int
  | universal => 0
  | shifted behind hours minutes =>
      let amount : Int := 3600 * hours + 60 * minutes
      if behind then -amount else amount

def fields : WrittenOffset → Option (Bool × List Char × List Char)
  | universal => none
  | shifted behind hours minutes => some (behind, (paddedText 2 hours).toList, (paddedText 2 minutes).toList)

variable (offset : WrittenOffset)

theorem splitOffset?_text : splitOffset? offset.text.toList = some offset.fields := by
  cases offset with
  | universal => rfl
  | shifted behind hours minutes =>
      obtain ⟨h₁, h₂, hhour, hhours⟩ := exists_two_digits (hours.isLt.trans (by decide))
      obtain ⟨n₁, n₂, hminute, hminutes⟩ := exists_two_digits (minutes.isLt.trans (by decide))
      have hdigits : ([h₁, h₂] ++ [n₁, n₂]).all isDigit = true := by
        rw [List.all_append, hhours.all_isDigit, hminutes.all_isDigit, Bool.and_self]
      cases behind <;> simpa [text, fields, splitOffset?, hhour, hminute] using hdigits

theorem natAbs_seconds_lt : offset.seconds.natAbs < 86400 := by
  cases offset with
  | universal => decide
  | shifted behind hours minutes =>
      simp only [seconds]
      split <;> omega

theorem length_text_pos : 0 < offset.text.toList.length := by
  cases offset with
  | universal => decide
  | shifted behind hours minutes => cases behind <;> simp [text]

theorem head?_text : ∀ c ∈ offset.text.toList.head?, isDigit c = false ∧ c ≠ '.' := by
  have hletter : isDigit 'Z' = false := by decide +kernel
  have hplus : isDigit '+' = false := by decide +kernel
  have hminus : isDigit '-' = false := by decide +kernel
  cases offset with
  | universal => simpa [text] using hletter
  | shifted behind hours minutes => cases behind <;> simp [text, hplus, hminus]

theorem plain_fields {behind : Bool} {hours minutes : List Char}
    (h : offset.fields = some (behind, hours, minutes)) : (hours ++ minutes).all isPlainDigit = true := by
  cases offset with
  | universal => cases h
  | shifted behind hours minutes =>
      cases h
      rw [List.all_append, (isField_paddedText 2 hours).all_isPlainDigit,
        (isField_paddedText 2 minutes).all_isPlainDigit, Bool.and_self]

theorem offsetSeconds_eq {f : LongFields} (h : f.offset = offset.fields) :
    f.offsetSeconds = offset.seconds := by
  unfold LongFields.offsetSeconds
  rw [h]
  cases offset with
  | universal => rfl
  | shifted behind hours minutes =>
      simp [fields, seconds, Number.digitsValue_paddedText]

end WrittenOffset

/-! ## The layouts -/

/-- The fields of a long layout that are plain digits of numbers in range are a moment. -/
theorem LongFields.moment_eq {f : LongFields} {date : Date} {time : ClockTime}
    {fraction : Option SecondFraction} {offset : WrittenOffset}
    (hyear : IsField f.year date.year) (hmonth : IsField f.month date.month) (hday : IsField f.day date.day)
    (hhour : IsField f.hour time.hour) (hminute : IsField f.minute time.minute)
    (hsecond : IsField f.second time.second) (hfraction : f.fraction = SecondFraction.digitsOf fraction)
    (hoffset : f.offset = offset.fields) :
    f.isPlain = true ∧
      f.moment = .ok (date.moment time (SecondFraction.microsOf fraction) offset.seconds) := by
  constructor
  · have hdigits : (f.fraction.take 6).all isPlainDigit = true := by
      rw [hfraction, List.all_eq_true]
      exact fun c hc => SecondFraction.isPlainDigit_of_mem_digitsOf (List.mem_of_mem_take hc)
    rw [isPlain, Bool.and_eq_true]
    constructor
    · simp only [List.all_append, hyear.all_isPlainDigit, hmonth.all_isPlainDigit, hday.all_isPlainDigit,
        hhour.all_isPlainDigit, hminute.all_isPlainDigit, hsecond.all_isPlainDigit, hdigits, Bool.and_self]
    · split
      · rfl
      · rename_i behind hours minutes hfields
        exact offset.plain_fields (hoffset.symm.trans hfields)
  · have hseconds : f.offsetSeconds = offset.seconds := offset.offsetSeconds_eq hoffset
    obtain ⟨hyearLow, -⟩ := date.year_in_range
    obtain ⟨hmonthLow, hmonthHigh⟩ := date.month_in_range
    obtain ⟨hdayLow, hdayHigh⟩ := date.day_in_range
    have hhourHigh := time.hour.isLt
    have hminuteHigh := time.minute.isLt
    have hsecondHigh := time.second.isLt
    have hoffsetHigh := offset.natAbs_seconds_lt
    unfold moment
    simp only [hseconds, hyear.value, hmonth.value, hday.value, hhour.value, hminute.value, hsecond.value,
      hfraction, SecondFraction.fractionMicros_digitsOf]
    rw [if_neg (by omega), if_neg (by omega), if_neg (by simp; omega), if_neg (by simp; omega),
      if_neg (by omega), if_neg (by omega), if_neg (by omega)]
    rfl

/-- A timestamp as it is written: a date, perhaps with a time after a letter or after a blank, or all fields. -/
inductive WrittenMoment where
  | day (date : Date)
  | joined (date : Date) (time : ClockTime)
  | spaced (date : Date) (time : ClockTime)
  | long (date : Date) (time : ClockTime) (fraction : Option SecondFraction) (offset : WrittenOffset)

namespace WrittenMoment

def text : WrittenMoment → String
  | day date => date.text
  | joined date time => date.text ++ "T" ++ time.text
  | spaced date time => date.text ++ " " ++ time.text
  | long date time fraction offset =>
      date.text ++ "T" ++ time.text ++ SecondFraction.textOf fraction ++ offset.text

def moment : WrittenMoment → Moment
  | day date => date.moment .midnight 0 0
  | joined date time | spaced date time => date.moment time 0 0
  | long date time fraction offset => date.moment time (SecondFraction.microsOf fraction) offset.seconds

variable (date : Date) (time : ClockTime)

theorem readMoment_day : readMoment (day date).text = .ok (day date).moment := by
  obtain ⟨y₁, y₂, y₃, y₄, m₁, m₂, d₁, d₂, htext, hyear, hmonth, hday⟩ := date.exists_letters
  have hmoment : universalMoment? date.year date.month date.day 0 0 0 = some (date.moment .midnight 0 0) :=
    date.universalMoment?_eq .midnight
  simp [readMoment, text, htext, readShort?, hyear.readYear?_eq, hmonth.readMonth?_eq date.month_in_range,
    hday.readDay?_eq ⟨date.day_in_range.1, date.day_le⟩, hmoment, moment]

theorem readMoment_joined : readMoment (joined date time).text = .ok (joined date time).moment := by
  obtain ⟨y₁, y₂, y₃, y₄, m₁, m₂, d₁, d₂, hdate, hyear, hmonth, hday⟩ := date.exists_letters
  obtain ⟨h₁, h₂, n₁, n₂, s₁, s₂, htime, hhour, hminute, hsecond⟩ := time.exists_letters
  simp [readMoment, text, hdate, htime, readShort?, hyear.readYear?_eq, hmonth.readMonth?_eq date.month_in_range,
    hday.readDay?_eq ⟨date.day_in_range.1, date.day_le⟩, hhour.readHour?_eq time.hour.isLt,
    hminute.readSixty?_eq time.minute.isLt, hsecond.readSixty?_eq time.second.isLt, date.universalMoment?_eq, moment]

theorem readMoment_spaced : readMoment (spaced date time).text = .ok (spaced date time).moment := by
  obtain ⟨y₁, y₂, y₃, y₄, m₁, m₂, d₁, d₂, hdate, hyear, hmonth, hday⟩ := date.exists_letters
  obtain ⟨h₁, h₂, n₁, n₂, s₁, s₂, htime, hhour, hminute, hsecond⟩ := time.exists_letters
  simp [readMoment, text, hdate, htime, readShort?, hyear.readYear?_eq, hmonth.readMonth?_eq date.month_in_range,
    hday.readDayBeforeBlank?_eq ⟨date.day_in_range.1, date.day_le⟩, hhour.readHourAfterBlank?_eq time.hour.isLt,
    hminute.readSixty?_eq time.minute.isLt, hsecond.readSixty?_eq time.second.isLt, date.universalMoment?_eq, moment]

/-- A long text is split at its places, up to the digits of the fraction, which end at the offset. -/
theorem splitLong?_tail (y₁ y₂ y₃ y₄ m₁ m₂ d₁ d₂ h₁ h₂ n₁ n₂ s₁ s₂ : Char)
    (hdigits : [y₁, y₂, y₃, y₄, m₁, m₂, d₁, d₂, h₁, h₂, n₁, n₂, s₁, s₂].all isDigit = true)
    (fraction : Option SecondFraction) (offset : WrittenOffset) :
    splitLong? (y₁ :: y₂ :: y₃ :: y₄ :: '-' :: m₁ :: m₂ :: '-' :: d₁ :: d₂ :: 'T' :: h₁ :: h₂ :: ':' ::
        n₁ :: n₂ :: ':' :: s₁ :: s₂ :: (SecondFraction.textOf fraction ++ offset.text).toList) =
      some ⟨[y₁, y₂, y₃, y₄], [m₁, m₂], [d₁, d₂], [h₁, h₂], [n₁, n₂], [s₁, s₂],
        SecondFraction.digitsOf fraction, offset.fields⟩ := by
  have hsplit := offset.splitOffset?_text
  have hhead := offset.head?_text
  rw [String.toList_append]
  generalize offset.text.toList = rest at hsplit hhead
  simp only [splitLong?, hdigits, if_true]
  cases fraction with
  | none =>
      cases rest with
      | nil => cases hsplit
      | cons c rest =>
          have hpoint : c ≠ '.' := (hhead c (by simp)).2
          simp [SecondFraction.textOf, SecondFraction.digitsOf, hpoint, hsplit]
  | some fraction =>
      have hspan := Text.span_isDigit (fun c hc => Text.isDigit_of_isPlainDigit (fraction.plain c hc))
        fun c hc => (hhead c hc).1
      simp [SecondFraction.textOf, SecondFraction.digitsOf, hspan, fraction.some_digit, hsplit]

theorem readMoment_long (fraction : Option SecondFraction) (offset : WrittenOffset) :
    readMoment (long date time fraction offset).text = .ok (long date time fraction offset).moment := by
  obtain ⟨y₁, y₂, y₃, y₄, m₁, m₂, d₁, d₂, hdate, hyear, hmonth, hday⟩ := date.exists_letters
  obtain ⟨h₁, h₂, n₁, n₂, s₁, s₂, htime, hhour, hminute, hsecond⟩ := time.exists_letters
  have hdigits : ([y₁, y₂, y₃, y₄] ++ [m₁, m₂] ++ [d₁, d₂] ++ [h₁, h₂] ++ [n₁, n₂] ++ [s₁, s₂]).all isDigit =
      true := by
    simp only [List.all_append, hyear.all_isDigit, hmonth.all_isDigit, hday.all_isDigit, hhour.all_isDigit,
      hminute.all_isDigit, hsecond.all_isDigit, Bool.and_self]
  have hsplit := splitLong?_tail _ _ _ _ _ _ _ _ _ _ _ _ _ _ hdigits fraction offset
  obtain ⟨hplain, hmoment⟩ := LongFields.moment_eq (f := ⟨[y₁, y₂, y₃, y₄], [m₁, m₂], [d₁, d₂], [h₁, h₂],
    [n₁, n₂], [s₁, s₂], SecondFraction.digitsOf fraction, offset.fields⟩) hyear hmonth hday hhour hminute
    hsecond rfl rfl
  have htext : (long date time fraction offset).text.toList = y₁ :: y₂ :: y₃ :: y₄ :: '-' :: m₁ :: m₂ :: '-' ::
      d₁ :: d₂ :: 'T' :: h₁ :: h₂ :: ':' :: n₁ :: n₂ :: ':' :: s₁ :: s₂ ::
        (SecondFraction.textOf fraction ++ offset.text).toList := by
    simp [text, hdate, htime]
  have hlong : ¬ (long date time fraction offset).text.toList.length < 20 := by
    have hoffset := offset.length_text_pos
    rw [htext, String.toList_append]
    simp only [List.length_cons, List.length_append]
    omega
  unfold readMoment
  dsimp only
  rw [if_neg hlong, htext, hsplit]
  simp [hplain, hmoment, moment]

end WrittenMoment

/--
A timestamp of any layout is read as its moment: the date at midnight or with its time in universal time, or the
date and time with the fraction, cut to microseconds, and the offset.
-/
theorem readMoment_text (w : WrittenMoment) : readMoment w.text = .ok w.moment := by
  cases w with
  | day date => exact WrittenMoment.readMoment_day date
  | joined date time => exact WrittenMoment.readMoment_joined date time
  | spaced date time => exact WrittenMoment.readMoment_spaced date time
  | long date time fraction offset => exact WrittenMoment.readMoment_long date time fraction offset

/-- The last night of a leap February, with a fraction finer than a microsecond. -/
def leapNight : WrittenMoment :=
  .long ⟨2024, 2, 29, by decide, by decide, by decide⟩ ⟨23, 59, 59⟩
    (some ⟨['9', '9', '9', '9', '9', '9', '9'], List.all_eq_true.1 (by decide), by decide⟩) (.shifted true 23 59)

example : leapNight.text = "2024-02-29T23:59:59.9999999-23:59" ∧
    leapNight.moment = ⟨2024, 2, 29, 23, 59, 59, 999999, some (-86340)⟩ := by decide +kernel

end RuleCheck.Literal
