import RuleCheck.Proofs.Literal.LongSpellings
import RuleCheck.Proofs.Visit.Escaping
import Mathlib.Data.List.Chain

/-! # Documented layouts of timestamps

A documented text is empty or a timestamp as it is written: plain digits, at most one blank, which stands between
date and time, and minutes and seconds that start with a digit below six.  More than that is read, so the layouts
are exactly the tidy ones of the texts that are read.
-/

namespace RuleCheck.Literal

open Number (paddedText)
open Text (isBlank isDigit isPlainDigit digitsValue)
open Time (Moment)

/-- The documented texts of a moment. -/
def IsDocumented (text : String) (m : Moment) : Prop :=
  text = "" ∧ m = .zero ∨ ∃ w : WrittenMoment, w.text = text ∧ w.moment = m

def Sixties (s : List Char) : Prop :=
  s.IsChain (fun c t => c = ':' → t.toNat < '6'.toNat) ∧ s.getLast? ≠ some ':'

structure IsTidy (s : List Char) : Prop where
  plain : ∀ c ∈ s, isDigit c = true → isPlainDigit c = true
  unspaced : ∀ i c, s[i]? = some c → isBlank c = true → i = 10
  sixties : Sixties s

/-! ## Parts without blanks -/

/-- The characters of a documented text that are neither digits nor blanks. -/
def marks : List Char := ['-', ':', 'T', '.', 'Z', '+']

def IsNeat (s : String) : Prop :=
  ∀ c ∈ s.toList, isPlainDigit c = true ∨ c ∈ marks

namespace IsNeat

variable {s t : String} {c : Char}

theorem of_marks (h : s.toList.all (fun c => c ∈ marks) = true) : IsNeat s :=
  fun c hc => .inr (of_decide_eq_true (List.all_eq_true.1 h c hc))

theorem append (hs : IsNeat s) (ht : IsNeat t) : IsNeat (s ++ t) := by
  rw [IsNeat, String.toList_append, List.forall_mem_append]
  exact ⟨hs, ht⟩

theorem isPlainDigit (h : IsNeat s) (hc : c ∈ s.toList) (hdigit : isDigit c = true) : isPlainDigit c = true := by
  have hmarks : ∀ c ∈ marks, (!isDigit c) = true := List.all_eq_true.1 (by decide +kernel)
  refine (h c hc).resolve_right fun hmark => ?_
  have hnot := hmarks c hmark
  rw [hdigit] at hnot
  cases hnot

theorem isBlank (h : IsNeat s) (hc : c ∈ s.toList) : isBlank c = false := by
  have hmarks : ∀ c ∈ marks, (!Text.isBlank c) = true := List.all_eq_true.1 (by decide)
  rcases h c hc with hplain | hmark
  · cases hblank : Text.isBlank c with
    | false => rfl
    | true =>
        have hdigit := Text.isDigit_of_isPlainDigit hplain
        rw [isDigit_of_isBlank hblank] at hdigit
        cases hdigit
  · simpa using hmarks c hmark

end IsNeat

theorem isNeat_paddedText (width n : Nat) : IsNeat (paddedText width n) :=
  fun _ hc => .inl (Number.isPlainDigit_of_mem_paddedText hc)

theorem Date.isNeat_text (date : Date) : IsNeat date.text :=
  ((((isNeat_paddedText 4 date.year).append (.of_marks (by decide))).append (isNeat_paddedText 2 date.month)).append
    (.of_marks (by decide))).append (isNeat_paddedText 2 date.day)

theorem ClockTime.isNeat_text (time : ClockTime) : IsNeat time.text :=
  ((((isNeat_paddedText 2 time.hour).append (.of_marks (by decide))).append (isNeat_paddedText 2 time.minute)).append
    (.of_marks (by decide))).append (isNeat_paddedText 2 time.second)

theorem SecondFraction.isNeat_textOf (fraction : Option SecondFraction) : IsNeat (textOf fraction) := by
  cases fraction with
  | none => exact .of_marks (by decide)
  | some fraction =>
      have hdigits : IsNeat (String.ofList fraction.digits) := fun c hc =>
        .inl (fraction.plain c (by simpa using hc))
      exact IsNeat.append (.of_marks (by decide)) hdigits

theorem WrittenOffset.isNeat_text (offset : WrittenOffset) : IsNeat offset.text := by
  cases offset with
  | universal => exact .of_marks (by decide)
  | shifted behind hours minutes =>
      have hsign : IsNeat (if behind then "-" else "+") := by cases behind <;> exact .of_marks (by decide)
      exact ((hsign.append (isNeat_paddedText 2 hours)).append (.of_marks (by decide))).append
        (isNeat_paddedText 2 minutes)

/-! ## Digits after colons -/

theorem sixties_of_not_mem {s : List Char} (h : ':' ∉ s) : Sixties s :=
  ⟨(List.pairwise_of_forall_mem_list fun _ hc _ _ (hcolon : _ = ':') => absurd (hcolon ▸ hc) h).isChain,
    fun hlast => h (List.mem_of_getLast? hlast)⟩

theorem Sixties.append {s t : List Char} (hs : Sixties s) (ht : Sixties t) : Sixties (s ++ t) := by
  refine ⟨List.isChain_append.2 ⟨hs.1, ht.1, fun _ hc _ _ (hcolon : _ = ':') => absurd (hcolon ▸ hc) hs.2⟩, ?_⟩
  rw [List.getLast?_append]
  cases hlast : t.getLast? with
  | none => exact hs.2
  | some c => exact fun h => ht.2 (hlast.trans h)

theorem not_mem_of_plain {s : List Char} (h : ∀ c ∈ s, isPlainDigit c = true) : ':' ∉ s := by
  intro hmem
  have hplain := h ':' hmem
  cases hplain

theorem sixties_paddedText (width n : Nat) : Sixties (paddedText width n).toList :=
  sixties_of_not_mem (not_mem_of_plain fun _ => Number.isPlainDigit_of_mem_paddedText)

theorem sixties_colon {n : Nat} (hn : n < 60) : Sixties (":" ++ paddedText 2 n).toList := by
  obtain ⟨t, d, htext, hfield⟩ := exists_two_digits (hn.trans (show 60 < 100 by decide))
  have htens := hfield.isPair.tens_lt_iff.2 hn
  have hcolons : ':' ∉ [t, d] := not_mem_of_plain hfield.plain
  simp only [List.mem_cons, List.not_mem_nil, or_false, not_or] at hcolons
  have hchain : Sixties [':', t, d] :=
    ⟨.cons_cons (fun _ => htens) (.cons_cons (fun ht => absurd ht.symm hcolons.1) (.singleton d)),
      fun hlast => hcolons.2 (Option.some.inj hlast).symm⟩
  simpa [htext] using hchain

theorem Date.sixties_text (date : Date) : Sixties date.text.toList := by
  have hmark : Sixties "-".toList := sixties_of_not_mem (by decide)
  simp only [text, String.toList_append]
  exact ((((sixties_paddedText 4 date.year).append hmark).append (sixties_paddedText 2 date.month)).append
    hmark).append (sixties_paddedText 2 date.day)

theorem ClockTime.sixties_text (time : ClockTime) : Sixties time.text.toList := by
  have hminute := sixties_colon time.minute.isLt
  have hsecond := sixties_colon time.second.isLt
  have htime := ((sixties_paddedText 2 time.hour).append hminute).append hsecond
  simpa [text] using htime

theorem SecondFraction.sixties_textOf (fraction : Option SecondFraction) : Sixties (textOf fraction).toList := by
  cases fraction with
  | none => exact sixties_of_not_mem (by decide)
  | some fraction =>
      have hpoint : Sixties ".".toList := sixties_of_not_mem (by decide)
      have hfraction := hpoint.append (sixties_of_not_mem (not_mem_of_plain fraction.plain))
      simpa [textOf] using hfraction

theorem WrittenOffset.sixties_text (offset : WrittenOffset) : Sixties offset.text.toList := by
  cases offset with
  | universal => exact sixties_of_not_mem (by decide)
  | shifted behind hours minutes =>
      have hsign : Sixties (if behind then "-" else "+").toList :=
        sixties_of_not_mem (by cases behind <;> decide)
      have hoffset := (hsign.append (sixties_paddedText 2 hours)).append (sixties_colon minutes.isLt)
      simpa [text] using hoffset

/-! ## Documented texts are tidy -/

theorem Date.length_text (date : Date) : date.text.toList.length = 10 := by
  obtain ⟨y₁, y₂, y₃, y₄, m₁, m₂, d₁, d₂, htext, -⟩ := date.exists_letters
  rw [htext]
  rfl

/-- A date alone is tidy, and so is a date with a letter or a blank and a part without blanks after it. -/
theorem Date.isTidy_text (date : Date) : IsTidy date.text.toList where
  plain _ := date.isNeat_text.isPlainDigit
  unspaced i c hc hblank := by
    rw [date.isNeat_text.isBlank (List.mem_of_getElem? hc)] at hblank
    cases hblank
  sixties := date.sixties_text

theorem Date.isTidy_append (date : Date) {mark : Char} {rest : String} (hmark : mark = 'T' ∨ mark = ' ')
    (hneat : IsNeat rest) (hsixties : Sixties rest.toList) :
    IsTidy (date.text.toList ++ mark :: rest.toList) where
  plain c hc hdigit := by
    rw [List.mem_append, List.mem_cons] at hc
    rcases hc with hc | rfl | hc
    · exact date.isNeat_text.isPlainDigit hc hdigit
    · have hno : isDigit 'T' = false ∧ isDigit ' ' = false := by decide +kernel
      rcases hmark with rfl | rfl <;> simp [hno] at hdigit
    · exact hneat.isPlainDigit hc hdigit
  unspaced i c hc hblank := by
    rw [List.getElem?_append, date.length_text] at hc
    split at hc
    · rw [date.isNeat_text.isBlank (List.mem_of_getElem? hc)] at hblank
      cases hblank
    · cases hi : i - 10 with
      | zero => omega
      | succ j =>
          rw [hi, List.getElem?_cons_succ] at hc
          rw [hneat.isBlank (List.mem_of_getElem? hc)] at hblank
          cases hblank
  sixties := by
    have hmarks : Sixties [mark] := sixties_of_not_mem (by rcases hmark with rfl | rfl <;> decide)
    exact date.sixties_text.append (hmarks.append hsixties)

theorem WrittenMoment.isTidy_text (w : WrittenMoment) : IsTidy w.text.toList := by
  cases w with
  | day date => exact date.isTidy_text
  | joined date time =>
      simpa [text] using date.isTidy_append (.inl rfl) time.isNeat_text time.sixties_text
  | spaced date time =>
      simpa [text] using date.isTidy_append (.inr rfl) time.isNeat_text time.sixties_text
  | long date time fraction offset =>
      have hneat := (time.isNeat_text.append (SecondFraction.isNeat_textOf fraction)).append offset.isNeat_text
      have hsixties := (time.sixties_text.append (SecondFraction.sixties_textOf fraction)).append
        offset.sixties_text
      rw [← String.toList_append, ← String.toList_append] at hsixties
      simpa [text] using date.isTidy_append (.inl rfl) hneat hsixties

/-! ## Tidy texts that are read are documented -/

theorem SpellsDay.isField {t d : Char} {n : Nat} (h : SpellsDay t d n) (ht : isBlank t = false)
    (hd : Text.isDigit d = true → isPlainDigit d = true) : IsField [t, d] n := by
  cases h with
  | plain h _ => exact h
  | foreign h _ => exact h.isField (hd h.ones)
  | blank h _ =>
      have hblank : isBlank ' ' = true := by decide
      rw [hblank] at ht
      cases ht

theorem SpellsDayBeforeBlank.isField {t d : Char} {n : Nat} (h : SpellsDayBeforeBlank t d n)
    (ht : isBlank t = false) (hd : isBlank d = false ∧ (Text.isDigit d = true → isPlainDigit d = true)) :
    IsField [t, d] n := by
  cases h with
  | day h => exact h.isField ht hd.2
  | short _ _ hblank =>
      rw [hblank] at hd
      cases hd.1

theorem SpellsHour.isField {t d : Char} {n : Nat} (h : SpellsHour t d n)
    (hd : Text.isDigit d = true → isPlainDigit d = true) : IsField [t, d] n := by
  cases h with
  | plain h _ => exact h
  | foreign h _ => exact h.isField (hd h.ones)

theorem SpellsHourAfterBlank.isField {t d : Char} {n : Nat} (h : SpellsHourAfterBlank t d n)
    (ht : isBlank t = false) (hd : Text.isDigit d = true → isPlainDigit d = true) : IsField [t, d] n := by
  cases h with
  | hour h => exact h.isField hd
  | short hblank _ _ =>
      rw [hblank] at ht
      cases ht

namespace IsTidy

variable {s rest : List Char}

theorem isBlank_eq_false (h : IsTidy s) {i : Nat} {c : Char} (hc : s[i]? = some c) (hi : i ≠ 10) :
    isBlank c = false :=
  Bool.eq_false_iff.2 fun hblank => hi (h.unspaced i c hc hblank)

theorem toList_date {day : Char → Char → Nat → Prop} {date : Date} (h : IsTidy (s ++ rest))
    (hdate : SpellsDate day date s)
    (hday : ∀ {t d n}, day t d n → isBlank t = false →
      isBlank d = false ∧ (isDigit d = true → isPlainDigit d = true) → IsField [t, d] n) :
    date.text.toList = s := by
  obtain ⟨hyear, hvalue, hmonth, hspells⟩ := hdate
  have hyears : IsField _ date.year :=
    ⟨fun c hc => h.plain c (List.mem_append_left _ (List.mem_of_mem_take (i := 4) hc)) (hyear c hc), hvalue⟩
  have hdays := hday hspells (h.isBlank_eq_false (i := 8) rfl (by decide))
    ⟨h.isBlank_eq_false (i := 9) rfl (by decide), h.plain _ (by simp)⟩
  exact date.toList_text hyears hmonth hdays

theorem toList_time {hour : Char → Char → Nat → Prop} {date : Date} {time : ClockTime} {mark : Char}
    {t : List Char} (h : IsTidy (date.text.toList ++ mark :: t)) (htime : SpellsTime hour time t)
    (hhour : ∀ {t d n}, hour t d n → isBlank t = false → (isDigit d = true → isPlainDigit d = true) →
      IsField [t, d] n) :
    time.text.toList = t := by
  obtain ⟨hspells, hminute, hsecond⟩ := htime
  have hblank : isBlank _ = false := h.isBlank_eq_false (i := 11)
    (by rw [List.getElem?_append_right (by rw [date.length_text]; decide), date.length_text]; rfl) (by decide)
  have hplain (c : Char) (hc : c ∈ _) := h.plain c (List.mem_append_right _ (List.mem_cons_of_mem _ hc))
  exact time.toList_text (hhour hspells hblank (hplain _ (by simp)))
    (hminute.isField (hplain _ (by simp) hminute.ones)) (hsecond.isField (hplain _ (by simp) hsecond.ones))

end IsTidy

theorem SpellsFraction.exists_written {fraction digits : List Char} (h : SpellsFraction fraction digits)
    (hplain : ∀ c ∈ fraction, isDigit c = true → isPlainDigit c = true) :
    ∃ written, (SecondFraction.textOf written).toList = fraction ∧
      SecondFraction.microsOf written = fractionMicros digits := by
  cases h with
  | none => exact ⟨Option.none, rfl, rfl⟩
  | point hne hdigits _ =>
      let written : SecondFraction :=
        ⟨digits, fun c hc => hplain c (List.mem_cons_of_mem _ hc) (hdigits c hc), hne⟩
      exact ⟨some written, by simp [SecondFraction.textOf, written],
        (SecondFraction.fractionMicros_digitsOf (some written)).symm⟩

/-- An offset with minutes that start with a digit below six is written so. -/
theorem SpellsOffset.exists_written {rest : List Char} {offset : Int} (h : SpellsOffset rest offset)
    (hsixties : rest.IsChain fun c t => c = ':' → t.toNat < '6'.toNat) :
    ∃ written : WrittenOffset, written.text.toList = rest ∧ written.seconds = offset := by
  cases h with
  | universal => exact ⟨.universal, rfl, rfl⟩
  | @shifted behind h₁ h₂ m₁ m₂ hours minutes hhours hminutes hday =>
      have hminute : minutes < 60 := by
        have hchain : ([if behind then '-' else '+', h₁, h₂] ++ ':' :: m₁ :: [m₂]).IsChain
            fun c t => c = ':' → t.toNat < '6'.toNat := hsixties
        have htens := (List.isChain_append_cons_cons.1 hchain).2.1 rfl
        exact hminutes.isPair.tens_lt_iff.1 htens
      have hhour : (paddedText 2 hours).toList = [h₁, h₂] := hhours.eq_paddedText (by simp)
      have hminute' : (paddedText 2 minutes).toList = [m₁, m₂] := hminutes.eq_paddedText (by simp)
      refine ⟨.shifted behind ⟨hours, by omega⟩ ⟨minutes, hminute⟩, ?_, ?_⟩
      · cases behind <;> simp [WrittenOffset.text, hhour, hminute']
      · simp [WrittenOffset.seconds]

theorem exists_written_of_isTidy {s : List Char} {m : Moment} (h : Spells s m) (htidy : IsTidy s) :
    s = [] ∧ m = .zero ∨ ∃ w : WrittenMoment, w.text.toList = s ∧ w.moment = m := by
  cases h with
  | zero => exact .inl ⟨rfl, rfl⟩
  | day hdate =>
      rw [← List.append_nil s] at htidy
      have hdates := htidy.toList_date hdate fun h ht hd => h.isField ht hd.2
      exact .inr ⟨.day _, hdates, rfl⟩
  | @joined date time _ _ hdate htime =>
      obtain rfl := htidy.toList_date hdate fun h ht hd => h.isField ht hd.2
      obtain rfl := htidy.toList_time htime fun h _ hd => h.isField hd
      exact .inr ⟨.joined date time, by simp [WrittenMoment.text], rfl⟩
  | @spaced date time _ _ hdate htime =>
      obtain rfl := htidy.toList_date hdate fun h ht hd => h.isField ht hd
      obtain rfl := htidy.toList_time htime fun h ht hd => h.isField ht hd
      exact .inr ⟨.spaced date time, by simp [WrittenMoment.text], rfl⟩
  | @long date time _ _ _ _ hfraction hoffset =>
      obtain ⟨fraction, rfl, hmicros⟩ := hfraction.exists_written fun c hc =>
        htidy.plain c (List.mem_append_left _ (List.mem_append_right _ hc))
      obtain ⟨offset, rfl, hseconds⟩ := hoffset.exists_written htidy.sixties.1.right_of_append
      exact .inr ⟨.long date time fraction offset, by simp [WrittenMoment.text],
        by rw [WrittenMoment.moment, hmicros, hseconds]⟩

/-! ## What is read -/

theorem WrittenMoment.spells (w : WrittenMoment) : Spells w.text.toList w.moment := by
  rw [← readMoment_eq_ok_iff]
  cases w with
  | day date => exact readMoment_day date
  | joined date time => exact readMoment_joined date time
  | spaced date time => exact readMoment_spaced date time
  | long date time fraction offset => exact readMoment_long date time fraction offset

theorem isDocumented_iff (text : String) (m : Moment) :
    IsDocumented text m ↔ IsTidy text.toList ∧ Spells text.toList m := by
  constructor
  · rintro (⟨rfl, rfl⟩ | ⟨w, rfl, rfl⟩)
    · exact ⟨⟨by simp, by simp, sixties_of_not_mem (by decide)⟩, .zero⟩
    · exact ⟨w.isTidy_text, w.spells⟩
  · rintro ⟨htidy, hspells⟩
    rcases exists_written_of_isTidy hspells htidy with ⟨hempty, rfl⟩ | ⟨w, htext, rfl⟩
    · exact .inl ⟨String.toList_eq_nil_iff.1 hempty, rfl⟩
    · exact .inr ⟨w, String.toList_inj.1 htext, rfl⟩

theorem exists_error_of_readMoment_ne (text : String) (h : ∀ m, readMoment text ≠ .ok m) :
    ∃ e, readMoment text = .error e ∧ e.isOverflow = false := by
  cases hread : readMoment text with
  | ok m => exact absurd hread (h m)
  | error e =>
      refine ⟨e, rfl, ?_⟩
      cases e with
      | durationOverflow overflow => exact absurd hread (readMoment_ne_overflow text overflow)
      | _ => rfl

/--
A text is read exactly if it spells a moment, and it is documented exactly if it is also tidy.  Any other text is
refused for how it is written, whatever its length.
-/
theorem readMoment_layouts (text : String) :
    (∀ m, readMoment text = .ok m ↔ Spells text.toList m) ∧
    (∀ m, IsDocumented text m ↔ IsTidy text.toList ∧ readMoment text = .ok m) ∧
    ((∀ m, ¬ Spells text.toList m) → ∃ e, readMoment text = .error e ∧ e.isOverflow = false) := by
  refine ⟨readMoment_eq_ok_iff text, fun m => ?_, fun h => ?_⟩
  · rw [readMoment_eq_ok_iff, isDocumented_iff]
  · exact exists_error_of_readMoment_ne text fun m hm => h m ((readMoment_eq_ok_iff text m).1 hm)

/--
A blank for a zero, a digit of another script and an offset with 60 minutes are read, and none of these texts is
documented.
-/
theorem readMoment_undocumented :
    (readMoment "2024-01- 1" = .ok ⟨2024, 1, 1, 0, 0, 0, 0, some 0⟩ ∧ ∀ m, ¬ IsDocumented "2024-01- 1" m) ∧
    (readMoment "2024-01-1٣" = .ok ⟨2024, 1, 13, 0, 0, 0, 0, some 0⟩ ∧ ∀ m, ¬ IsDocumented "2024-01-1٣" m) ∧
    (readMoment "2024-03-01T10:20:30+05:60" = .ok ⟨2024, 3, 1, 10, 20, 30, 0, some 21600⟩ ∧
      ∀ m, ¬ IsDocumented "2024-03-01T10:20:30+05:60" m) := by
  refine ⟨⟨by decide +kernel, fun m h => ?_⟩, ⟨by decide +kernel, fun m h => ?_⟩,
    ⟨by decide +kernel, fun m h => ?_⟩⟩
  · have htidy := ((isDocumented_iff _ m).1 h).1
    exact absurd (htidy.unspaced 8 ' ' (by decide) (by decide)) (by decide)
  · have htidy := ((isDocumented_iff _ m).1 h).1
    exact absurd (htidy.plain '٣' (by decide) (by decide +kernel)) (by decide)
  · have htidy := ((isDocumented_iff _ m).1 h).1
    exact absurd htidy.sixties.1 (by decide)

end RuleCheck.Literal
