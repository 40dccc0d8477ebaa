import RuleCheck.Proofs.Literal.Moment
import RuleCheck.Proofs.Text.Folding

/-! # Accepted spellings of timestamps

The readers of timestamps take more than is documented.  In the short layouts the second digit of a field may be
of any script, the tens of a day may be a blank, and next to the blank between date and time a field may be a
single digit and a further blank; in the long layout the digits of a fraction after the sixth may be of any
script, and the minutes of an offset may be up to 99.  `Spells` lists all that is read, field by field.
-/

namespace RuleCheck.Literal

open Number (paddedText)
open Text (isBlank isDigit isPlainDigit digitValue? digitsValue)
open Time (Moment)

/-! ## Fields of the short layouts -/

/-- A plain digit and a digit of any script, and the number that they are. -/
structure IsPair (t d : Char) (n : Nat) : Prop where
  tens : isPlainDigit t = true
  ones : isDigit d = true
  value : digitsValue [t, d] = n

variable {t d : Char} {n : Nat}

theorem IsField.isPair (h : IsField [t, d] n) : IsPair t d n :=
  ⟨h.plain t (by simp), Text.isDigit_of_isPlainDigit (h.plain d (by simp)), h.value⟩

theorem IsPair.isField (h : IsPair t d n) (hplain : isPlainDigit d = true) : IsField [t, d] n :=
  ⟨by simp [h.tens, hplain], h.value⟩

theorem isField_of_all {digits : List Char} (h : digits.all isPlainDigit = true) :
    IsField digits (digitsValue digits) :=
  ⟨List.all_eq_true.1 h, rfl⟩

theorem IsPair.tens_iff (h : IsPair t d n) (k : Fin 10) :
    t = Nat.digitChar k ↔ 10 * k.val ≤ n ∧ n < 10 * k.val + 10 := by
  obtain ⟨i, rfl⟩ := Text.exists_digitChar_of_isPlainDigit h.tens
  obtain ⟨j, hj⟩ := Option.isSome_iff_exists.1 h.ones
  have hdigits : ∀ i k : Fin 10, Nat.digitChar i = Nat.digitChar k ↔ i.val = k.val := by decide
  have htens : ∀ i : Fin 10, (digitValue? (Nat.digitChar i)).getD 0 = i := by decide
  have hones := Text.digitValue?_lt hj
  have hn : n = 10 * i + j := by
    rw [← h.value]
    simp [digitsValue, htens, hj]
  rw [hdigits]
  omega

theorem IsPair.tens_lt_iff (h : IsPair t d n) : t.toNat < '6'.toNat ↔ n < 60 := by
  obtain ⟨i, hi⟩ := Text.exists_digitChar_of_isPlainDigit h.tens
  have hrange := (h.tens_iff i).1 hi
  have hdigits : ∀ i : Fin 10, (Nat.digitChar i).toNat < '6'.toNat ↔ i.val < 6 := by decide
  rw [hi, hdigits]
  omega

inductive SpellsDay : Char → Char → Nat → Prop
  | plain {t d : Char} {n : Nat} (h : IsField [t, d] n) (hn : 1 ≤ n ∧ n ≤ 31) : SpellsDay t d n
  | foreign {t d : Char} {n : Nat} (h : IsPair t d n) (hn : 10 ≤ n ∧ n < 30) : SpellsDay t d n
  | blank {d : Char} {n : Nat} (h : IsField [d] n) (hn : 1 ≤ n) : SpellsDay ' ' d n

/-- A day in front of a blank, which may be a single digit in front of a further blank. -/
inductive SpellsDayBeforeBlank : Char → Char → Nat → Prop
  | day {t d : Char} {n : Nat} (h : SpellsDay t d n) : SpellsDayBeforeBlank t d n
  | short {t d : Char} {n : Nat} (h : IsField [t] n) (hn : 1 ≤ n) (hd : isBlank d = true) :
      SpellsDayBeforeBlank t d n

inductive SpellsHour : Char → Char → Nat → Prop
  | plain {t d : Char} {n : Nat} (h : IsField [t, d] n) (hn : n < 24) : SpellsHour t d n
  | foreign {t d : Char} {n : Nat} (h : IsPair t d n) (hn : n < 20) : SpellsHour t d n

/-- An hour after a blank, which may be a single digit after a further blank. -/
inductive SpellsHourAfterBlank : Char → Char → Nat → Prop
  | hour {t d : Char} {n : Nat} (h : SpellsHour t d n) : SpellsHourAfterBlank t d n
  | short {t d : Char} {n : Nat} (ht : isBlank t = true) (hd : isDigit d = true)
      (hn : digitsValue [d] = n) : SpellsHourAfterBlank t d n

theorem readYear?_eq_some_iff {digits : List Char} :
    readYear? digits = some n ↔ (∀ c ∈ digits, isDigit c = true) ∧ digitsValue digits = n := by
  simp [readYear?]

/-- A single plain digit other than zero is read as with a zero in front. -/
theorem isField_of_nonzero (hplain : isPlainDigit d = true) (hzero : d ≠ '0') :
    IsField [d] (digitsValue [d]) ∧ IsField ['0', d] (digitsValue [d]) ∧ 1 ≤ digitsValue [d] ∧
      digitsValue [d] ≤ 9 := by
  obtain ⟨j, rfl⟩ := Text.exists_digitChar_of_isPlainDigit hplain
  have hvalues : ∀ j : Fin 10, Nat.digitChar j ≠ '0' →
      digitsValue ['0', Nat.digitChar j] = digitsValue [Nat.digitChar j] ∧
        1 ≤ digitsValue [Nat.digitChar j] ∧ digitsValue [Nat.digitChar j] ≤ 9 := by decide
  obtain ⟨hvalue, hrange⟩ := hvalues j hzero
  have hfirst : isPlainDigit '0' = true := by decide
  exact ⟨⟨by simpa using hplain, rfl⟩, ⟨by simp [hfirst, hplain], hvalue⟩, hrange⟩

/-- A digit that is read as a number other than zero is not written as zero. -/
theorem IsField.singleton_ne_zero (h : IsField [d] n) (hn : 1 ≤ n) :
    isPlainDigit d = true ∧ d ≠ '0' := by
  refine ⟨h.plain d (by simp), ?_⟩
  rintro rfl
  have hzero : digitsValue ['0'] = 0 := by decide
  have hvalue := h.value
  omega

theorem readMonth?_eq_some_iff : readMonth? t d = some n ↔ IsField [t, d] n ∧ 1 ≤ n ∧ n ≤ 12 := by
  refine ⟨fun h => ?_, fun h => h.1.readMonth?_eq h.2⟩
  unfold readMonth? at h
  split at h
  · split at h
    · rename_i hd
      cases h
      simp only [Bool.or_eq_true, beq_iff_eq] at hd
      rcases hd with (rfl | rfl) | rfl <;> exact ⟨isField_of_all (by decide), by decide⟩
    · cases h
  · split at h
    · rename_i hd
      cases h
      simp only [Bool.and_eq_true, bne_iff_ne] at hd
      obtain ⟨-, hfield, hrange⟩ := isField_of_nonzero hd.1 hd.2
      exact ⟨hfield, by omega⟩
    · cases h
  · cases h

theorem readDay?_eq_some_iff : readDay? t d = some n ↔ SpellsDay t d n := by
  constructor
  · intro h
    unfold readDay? at h
    split at h
    · split at h
      · rename_i hd
        cases h
        simp only [Bool.or_eq_true, beq_iff_eq] at hd
        rcases hd with rfl | rfl <;> exact .plain (isField_of_all (by decide)) (by decide)
      · cases h
    · split at h
      · rename_i hd
        cases h
        simp only [Bool.and_eq_true, bne_iff_ne] at hd
        obtain ⟨-, hfield, hrange⟩ := isField_of_nonzero hd.1 hd.2
        exact .plain hfield (by omega)
      · cases h
    · split at h
      · rename_i hd
        cases h
        simp only [Bool.and_eq_true, bne_iff_ne] at hd
        obtain ⟨hfield, -, hrange⟩ := isField_of_nonzero hd.1 hd.2
        exact .blank hfield hrange.1
      · cases h
    · split at h
      · rename_i ht
        cases h
        simp only [Bool.and_eq_true, Bool.or_eq_true, beq_iff_eq] at ht
        obtain ⟨htens, hones⟩ := ht
        have hpair : IsPair t d (digitsValue [t, d]) :=
          ⟨by rcases htens with rfl | rfl <;> decide, hones, rfl⟩
        refine .foreign hpair ?_
        rcases htens with rfl | rfl
        · have := (hpair.tens_iff 1).1 rfl
          omega
        · have := (hpair.tens_iff 2).1 rfl
          omega
      · cases h
  · intro h
    cases h with
    | plain h hn => exact h.readDay?_eq hn
    | blank h hn =>
        obtain ⟨hplain, hzero⟩ := h.singleton_ne_zero hn
        simp [readDay?, hplain, hzero, h.value]
    | foreign h hn =>
        have htens : t = '1' ∨ t = '2' := by
          by_cases hlow : n < 20
          · exact .inl ((h.tens_iff 1).2 (by omega))
          · exact .inr ((h.tens_iff 2).2 (by omega))
        rcases htens with rfl | rfl <;> simp [readDay?, h.ones, h.value]

theorem isDigit_of_isBlank {c : Char} (h : isBlank c = true) : isDigit c = false := by
  have hnone : ∀ n ∈ Text.blankCodes, Text.zeroDigits.find? (fun z => z ≤ n && n < z + 10) = none := by
    decide +kernel
  simp [isDigit, digitValue?, hnone _ (Text.mem_blankCodes h)]

theorem SpellsDay.isDigit (h : SpellsDay t d n) : isDigit d = true := by
  cases h with
  | plain h _ => exact h.isPair.ones
  | foreign h _ => exact h.ones
  | blank h _ => exact Text.isDigit_of_isPlainDigit (h.plain d (by simp))

theorem readDayBeforeBlank?_eq_some_iff :
    readDayBeforeBlank? t d = some n ↔ SpellsDayBeforeBlank t d n := by
  constructor
  · intro h
    unfold readDayBeforeBlank? at h
    split at h
    · rename_i day hday
      cases h
      exact .day (readDay?_eq_some_iff.1 hday)
    · split at h
      · rename_i hshort
        cases h
        simp only [Bool.and_eq_true, bne_iff_ne] at hshort
        obtain ⟨⟨hplain, hzero⟩, hd⟩ := hshort
        obtain ⟨hfield, -, hrange⟩ := isField_of_nonzero hplain hzero
        exact .short hfield hrange.1 hd
      · cases h
  · intro h
    cases h with
    | day h => rw [readDayBeforeBlank?, readDay?_eq_some_iff.2 h]
    | short h hn hd =>
        have hday : readDay? t d = none := by
          refine Option.eq_none_iff_forall_ne_some.2 fun m hm => ?_
          have hdigit := (readDay?_eq_some_iff.1 hm).isDigit
          rw [isDigit_of_isBlank hd] at hdigit
          cases hdigit
        obtain ⟨hplain, hzero⟩ := h.singleton_ne_zero hn
        simp [readDayBeforeBlank?, hday, hplain, hzero, hd, h.value]

theorem readHour?_eq_some_iff : readHour? t d = some n ↔ SpellsHour t d n := by
  constructor
  · intro h
    unfold readHour? at h
    split at h
    · split at h
      · rename_i hd
        cases h
        simp only [Bool.or_eq_true, beq_iff_eq] at hd
        rcases hd with ((rfl | rfl) | rfl) | rfl <;> exact .plain (isField_of_all (by decide)) (by decide)
      · cases h
    · split at h
      · rename_i ht
        cases h
        simp only [Bool.and_eq_true, Bool.or_eq_true, beq_iff_eq] at ht
        obtain ⟨htens, hones⟩ := ht
        have hpair : IsPair t d (digitsValue [t, d]) :=
          ⟨by rcases htens with rfl | rfl <;> decide, hones, rfl⟩
        refine .foreign hpair ?_
        rcases htens with rfl | rfl
        · have := (hpair.tens_iff 0).1 rfl
          omega
        · have := (hpair.tens_iff 1).1 rfl
          omega
      · cases h
  · intro h
    cases h with
    | plain h hn => exact h.readHour?_eq hn
    | foreign h hn =>
        have htens : t = '0' ∨ t = '1' := by
          by_cases hlow : n < 10
          · exact .inl ((h.tens_iff 0).2 (by omega))
          · exact .inr ((h.tens_iff 1).2 (by omega))
        rcases htens with rfl | rfl <;> simp [readHour?, h.ones, h.value]

theorem SpellsHour.isDigit (h : SpellsHour t d n) : Text.isDigit t = true := by
  cases h with
  | plain h _ => exact Text.isDigit_of_isPlainDigit h.isPair.tens
  | foreign h _ => exact Text.isDigit_of_isPlainDigit h.tens

theorem readHourAfterBlank?_eq_some_iff :
    readHourAfterBlank? t d = some n ↔ SpellsHourAfterBlank t d n := by
  constructor
  · intro h
    unfold readHourAfterBlank? at h
    split at h
    · rename_i hour hhour
      cases h
      exact .hour (readHour?_eq_some_iff.1 hhour)
    · split at h
      · rename_i hshort
        cases h
        rw [Bool.and_eq_true] at hshort
        exact .short hshort.1 hshort.2 rfl
      · cases h
  · intro h
    cases h with
    | hour h => rw [readHourAfterBlank?, readHour?_eq_some_iff.2 h]
    | short ht hd hn =>
        have hhour : readHour? t d = none := by
          refine Option.eq_none_iff_forall_ne_some.2 fun m hm => ?_
          have hdigit := (readHour?_eq_some_iff.1 hm).isDigit
          rw [isDigit_of_isBlank ht] at hdigit
          cases hdigit
        simp [readHourAfterBlank?, hhour, ht, hd, hn]

theorem readSixty?_eq_some_iff : readSixty? t d = some n ↔ IsPair t d n ∧ n < 60 := by
  unfold readSixty?
  constructor
  · intro h
    split at h
    · rename_i hread
      cases h
      simp only [Bool.and_eq_true, decide_eq_true_eq] at hread
      have hpair : IsPair t d (digitsValue [t, d]) := ⟨hread.1.1, hread.2, rfl⟩
      exact ⟨hpair, hpair.tens_lt_iff.1 hread.1.2⟩
    · cases h
  · rintro ⟨hpair, hn⟩
    rw [if_pos (by simp only [Bool.and_eq_true, decide_eq_true_eq]; exact
      ⟨⟨hpair.tens, hpair.tens_lt_iff.2 hn⟩, hpair.ones⟩), hpair.value]

/-! ## Fields in plain digits -/

theorem eq_of_digitsValue_eq {s s' : List Char} (hs : ∀ c ∈ s, isPlainDigit c = true)
    (hs' : ∀ c ∈ s', isPlainDigit c = true) (hlength : s.length = s'.length)
    (hvalue : digitsValue s = digitsValue s') : s = s' := by
  have hdigits : ∀ i j : Fin 10, (digitValue? (Nat.digitChar i)).getD 0 = (digitValue? (Nat.digitChar j)).getD 0 →
      i = j := by decide
  have hbelow : ∀ i : Fin 10, (digitValue? (Nat.digitChar i)).getD 0 < 10 := by decide
  induction s using List.reverseRecOn generalizing s' with
  | nil => exact (List.length_eq_zero_iff.1 hlength.symm).symm
  | append_singleton s c ih =>
      rcases List.eq_nil_or_concat' s' with rfl | ⟨s', c', rfl⟩
      · simp at hlength
      · rw [List.forall_mem_append, List.forall_mem_singleton] at hs hs'
        rw [Text.digitsValue_concat, Text.digitsValue_concat] at hvalue
        obtain ⟨i, rfl⟩ := Text.exists_digitChar_of_isPlainDigit hs.2
        obtain ⟨j, rfl⟩ := Text.exists_digitChar_of_isPlainDigit hs'.2
        have hi := hbelow i
        have hj := hbelow j
        have hfront := ih hs.1 hs'.1 (by simpa using hlength) (by omega)
        rw [hfront, hdigits i j (by omega)]

/-- A field in plain digits is the number as it is written with zeros in front. -/
theorem IsField.eq_paddedText {digits : List Char} (h : IsField digits n) (hne : digits ≠ []) :
    (paddedText digits.length n).toList = digits := by
  have hwritten := isField_paddedText digits.length n
  have hlength : (paddedText digits.length n).toList.length = digits.length :=
    Number.length_paddedText (List.length_pos_of_ne_nil hne) (h.value ▸ Text.digitsValue_lt digits)
  exact eq_of_digitsValue_eq hwritten.plain h.plain hlength (hwritten.value.trans h.value.symm)

theorem Date.toList_text (date : Date) {y₁ y₂ y₃ y₄ m₁ m₂ d₁ d₂ : Char}
    (hyear : IsField [y₁, y₂, y₃, y₄] date.year) (hmonth : IsField [m₁, m₂] date.month)
    (hday : IsField [d₁, d₂] date.day) :
    date.text.toList = [y₁, y₂, y₃, y₄, '-', m₁, m₂, '-', d₁, d₂] := by
  have hyears : (paddedText 4 date.year).toList = _ := hyear.eq_paddedText (by simp)
  have hmonths : (paddedText 2 date.month).toList = _ := hmonth.eq_paddedText (by simp)
  have hdays : (paddedText 2 date.day).toList = _ := hday.eq_paddedText (by simp)
  simp [text, hyears, hmonths, hdays]

theorem ClockTime.toList_text (time : ClockTime) {h₁ h₂ n₁ n₂ s₁ s₂ : Char}
    (hhour : IsField [h₁, h₂] time.hour) (hminute : IsField [n₁, n₂] time.minute)
    (hsecond : IsField [s₁, s₂] time.second) :
    time.text.toList = [h₁, h₂, ':', n₁, n₂, ':', s₁, s₂] := by
  have hhours : (paddedText 2 time.hour).toList = _ := hhour.eq_paddedText (by simp)
  have hminutes : (paddedText 2 time.minute).toList = _ := hminute.eq_paddedText (by simp)
  have hseconds : (paddedText 2 time.second).toList = _ := hsecond.eq_paddedText (by simp)
  simp [text, hhours, hminutes, hseconds]

/-! ## Layouts -/

/-- A date in a short layout, with a way to spell its day. -/
inductive SpellsDate (day : Char → Char → Nat → Prop) (date : Date) : List Char → Prop
  | mk {y₁ y₂ y₃ y₄ m₁ m₂ d₁ d₂ : Char} (hyear : ∀ c ∈ [y₁, y₂, y₃, y₄], isDigit c = true)
      (hvalue : digitsValue [y₁, y₂, y₃, y₄] = date.year) (hmonth : IsField [m₁, m₂] date.month)
      (hday : day d₁ d₂ date.day) : SpellsDate day date [y₁, y₂, y₃, y₄, '-', m₁, m₂, '-', d₁, d₂]

/-- A time in a short layout, with a way to spell its hour. -/
inductive SpellsTime (hour : Char → Char → Nat → Prop) (time : ClockTime) : List Char → Prop
  | mk {h₁ h₂ n₁ n₂ s₁ s₂ : Char} (hhour : hour h₁ h₂ time.hour) (hminute : IsPair n₁ n₂ time.minute)
      (hsecond : IsPair s₁ s₂ time.second) : SpellsTime hour time [h₁, h₂, ':', n₁, n₂, ':', s₁, s₂]

/-- The digits of a fraction, of which the first six are plain, with the point in front if there are any. -/
inductive SpellsFraction : List Char → List Char → Prop
  | none : SpellsFraction [] []
  | point {digits : List Char} (hne : digits ≠ []) (hdigits : ∀ c ∈ digits, isDigit c = true)
      (hplain : ∀ c ∈ digits.take 6, isPlainDigit c = true) : SpellsFraction ('.' :: digits) digits

inductive SpellsOffset : List Char → Int → Prop
  | universal : SpellsOffset ['Z'] 0
  | shifted (behind : Bool) {h₁ h₂ m₁ m₂ : Char} {hours minutes : Nat} (hhours : IsField [h₁, h₂] hours)
      (hminutes : IsField [m₁, m₂] minutes) (hday : 3600 * hours + 60 * minutes < 86400) :
      SpellsOffset [if behind then '-' else '+', h₁, h₂, ':', m₁, m₂]
        (if behind then -Int.ofNat (3600 * hours + 60 * minutes)
          else Int.ofNat (3600 * hours + 60 * minutes))

/-- The texts that are read as a moment. -/
inductive Spells : List Char → Moment → Prop
  | zero : Spells [] .zero
  | day {date : Date} {s : List Char} (hdate : SpellsDate SpellsDay date s) :
      Spells s (date.moment .midnight 0 0)
  | joined {date : Date} {time : ClockTime} {s t : List Char} (hdate : SpellsDate SpellsDay date s)
      (htime : SpellsTime SpellsHour time t) : Spells (s ++ 'T' :: t) (date.moment time 0 0)
  | spaced {date : Date} {time : ClockTime} {s t : List Char}
      (hdate : SpellsDate SpellsDayBeforeBlank date s) (htime : SpellsTime SpellsHourAfterBlank time t) :
      Spells (s ++ ' ' :: t) (date.moment time 0 0)
  | long {date : Date} {time : ClockTime} {fraction digits rest : List Char} {offset : Int}
      (hfraction : SpellsFraction fraction digits) (hoffset : SpellsOffset rest offset) :
      Spells ((date.text ++ "T" ++ time.text).toList ++ fraction ++ rest)
        (date.moment time (fractionMicros digits) offset)

/-! ## What the short layouts read -/

theorem SpellsDay.pos (h : SpellsDay t d n) : 1 ≤ n := by
  cases h <;> omega

theorem SpellsDayBeforeBlank.pos (h : SpellsDayBeforeBlank t d n) : 1 ≤ n := by
  cases h with
  | day h => exact h.pos
  | short _ hn _ => exact hn

theorem SpellsHour.lt (h : SpellsHour t d n) : n < 24 := by
  cases h <;> omega

theorem SpellsHourAfterBlank.lt (h : SpellsHourAfterBlank t d n) : n < 24 := by
  cases h with
  | hour h => exact h.lt
  | short _ _ hn =>
      have hdigit := Text.digitsValue_lt [d]
      rw [List.length_singleton] at hdigit
      omega

theorem year_le (y₁ y₂ y₃ y₄ : Char) : digitsValue [y₁, y₂, y₃, y₄] ≤ 9999 := by
  have hbound : digitsValue [y₁, y₂, y₃, y₄] < 10 ^ 4 := Text.digitsValue_lt [y₁, y₂, y₃, y₄]
  omega

theorem exists_date {y₁ y₂ y₃ y₄ m₁ m₂ d₁ d₂ : Char} {day : Char → Char → Nat → Prop}
    {year month dayOfMonth hour minute second : Nat} {m : Moment}
    (hyear : readYear? [y₁, y₂, y₃, y₄] = some year) (hmonth : readMonth? m₁ m₂ = some month)
    (hday : day d₁ d₂ dayOfMonth) (hpos : 1 ≤ dayOfMonth)
    (hmoment : universalMoment? year month dayOfMonth hour minute second = some m) :
    ∃ date, SpellsDate day date [y₁, y₂, y₃, y₄, '-', m₁, m₂, '-', d₁, d₂] ∧
      m = ⟨date.year, date.month, date.day, hour, minute, second, 0, some 0⟩ := by
  obtain ⟨hdigits, hvalue⟩ := readYear?_eq_some_iff.1 hyear
  obtain ⟨hfield, hlow, hhigh⟩ := readMonth?_eq_some_iff.1 hmonth
  unfold universalMoment? at hmoment
  split at hmoment
  · rename_i hreal
    cases hmoment
    rw [Bool.and_eq_true, decide_eq_true_eq, decide_eq_true_eq] at hreal
    exact ⟨⟨year, month, dayOfMonth, ⟨hreal.1, hvalue ▸ year_le y₁ y₂ y₃ y₄⟩, ⟨hlow, hhigh⟩, ⟨hpos, hreal.2⟩⟩,
      ⟨hdigits, hvalue, hfield, hday⟩, rfl⟩
  · cases hmoment

theorem exists_time {h₁ h₂ n₁ n₂ s₁ s₂ : Char} {spelling : Char → Char → Nat → Prop}
    {hour minute second : Nat} (hhour : spelling h₁ h₂ hour) (hlt : hour < 24)
    (hminute : readSixty? n₁ n₂ = some minute) (hsecond : readSixty? s₁ s₂ = some second) :
    ∃ time : ClockTime, SpellsTime spelling time [h₁, h₂, ':', n₁, n₂, ':', s₁, s₂] ∧
      time.hour.val = hour ∧ time.minute.val = minute ∧ time.second.val = second := by
  obtain ⟨hminutes, hminuteLt⟩ := readSixty?_eq_some_iff.1 hminute
  obtain ⟨hseconds, hsecondLt⟩ := readSixty?_eq_some_iff.1 hsecond
  exact ⟨⟨⟨hour, hlt⟩, ⟨minute, hminuteLt⟩, ⟨second, hsecondLt⟩⟩, ⟨hhour, hminutes, hseconds⟩, rfl, rfl, rfl⟩

theorem spells_of_readShort? {s : List Char} {m : Moment} (h : readShort? s = some m) : Spells s m := by
  unfold readShort? at h
  split at h
  · simp only [bind, Option.bind_eq_some_iff] at h
    obtain ⟨year, hyear, month, hmonth, day, hday, hmoment⟩ := h
    have hspells := readDay?_eq_some_iff.1 hday
    obtain ⟨date, hdate, rfl⟩ := exists_date hyear hmonth hspells hspells.pos hmoment
    exact .day hdate
  · simp only [bind, Option.bind_eq_some_iff] at h
    obtain ⟨year, hyear, month, hmonth, day, hday, hour, hhour, minute, hminute, second, hsecond, hmoment⟩ := h
    have hspells := readDay?_eq_some_iff.1 hday
    have hhours := readHour?_eq_some_iff.1 hhour
    obtain ⟨date, hdate, rfl⟩ := exists_date hyear hmonth hspells hspells.pos hmoment
    obtain ⟨time, htime, rfl, rfl, rfl⟩ := exists_time hhours hhours.lt hminute hsecond
    exact .joined hdate htime
  · simp only [bind, Option.bind_eq_some_iff] at h
    obtain ⟨year, hyear, month, hmonth, day, hday, hour, hhour, minute, hminute, second, hsecond, hmoment⟩ := h
    have hspells := readDayBeforeBlank?_eq_some_iff.1 hday
    have hhours := readHourAfterBlank?_eq_some_iff.1 hhour
    obtain ⟨date, hdate, rfl⟩ := exists_date hyear hmonth hspells hspells.pos hmoment
    obtain ⟨time, htime, rfl, rfl, rfl⟩ := exists_time hhours hhours.lt hminute hsecond
    exact .spaced hdate htime
  · cases h

theorem length_of_readShort? {s : List Char} {m : Moment} (h : readShort? s = some m) :
    0 < s.length ∧ s.length < 20 := by
  unfold readShort? at h
  split at h
  · simp
  · simp
  · simp
  · cases h

theorem readMoment_of_readShort? {text : String} {m : Moment} (h : readShort? text.toList = some m) :
    readMoment text = .ok m := by
  obtain ⟨hpos, hshort⟩ := length_of_readShort? h
  have hne : text.toList.isEmpty = false := by
    rw [List.isEmpty_eq_false_iff]
    exact List.ne_nil_of_length_pos hpos
  rw [readMoment, hne, if_neg Bool.false_ne_true, if_pos hshort, h]

section Short

variable {date : Date} {time : ClockTime} {s t : List Char}

theorem readShort?_of_day (hdate : SpellsDate SpellsDay date s) :
    readShort? s = some (date.moment .midnight 0 0) := by
  obtain ⟨hyear, hvalue, hmonth, hday⟩ := hdate
  have hmoment : universalMoment? date.year date.month date.day 0 0 0 = some (date.moment .midnight 0 0) :=
    date.universalMoment?_eq .midnight
  simp [readShort?, readYear?_eq_some_iff.2 ⟨hyear, hvalue⟩, hmonth.readMonth?_eq date.month_in_range,
    readDay?_eq_some_iff.2 hday, hmoment]

theorem readShort?_of_joined (hdate : SpellsDate SpellsDay date s) (htime : SpellsTime SpellsHour time t) :
    readShort? (s ++ 'T' :: t) = some (date.moment time 0 0) := by
  obtain ⟨hyear, hvalue, hmonth, hday⟩ := hdate
  obtain ⟨hhour, hminute, hsecond⟩ := htime
  simp [readShort?, readYear?_eq_some_iff.2 ⟨hyear, hvalue⟩, hmonth.readMonth?_eq date.month_in_range,
    readDay?_eq_some_iff.2 hday, readHour?_eq_some_iff.2 hhour,
    readSixty?_eq_some_iff.2 ⟨hminute, time.minute.isLt⟩, readSixty?_eq_some_iff.2 ⟨hsecond, time.second.isLt⟩,
    date.universalMoment?_eq]

theorem readShort?_of_spaced (hdate : SpellsDate SpellsDayBeforeBlank date s)
    (htime : SpellsTime SpellsHourAfterBlank time t) :
    readShort? (s ++ ' ' :: t) = some (date.moment time 0 0) := by
  obtain ⟨hyear, hvalue, hmonth, hday⟩ := hdate
  obtain ⟨hhour, hminute, hsecond⟩ := htime
  simp [readShort?, readYear?_eq_some_iff.2 ⟨hyear, hvalue⟩, hmonth.readMonth?_eq date.month_in_range,
    readDayBeforeBlank?_eq_some_iff.2 hday, readHourAfterBlank?_eq_some_iff.2 hhour,
    readSixty?_eq_some_iff.2 ⟨hminute, time.minute.isLt⟩, readSixty?_eq_some_iff.2 ⟨hsecond, time.second.isLt⟩,
    date.universalMoment?_eq]

end Short

end RuleCheck.Literal
