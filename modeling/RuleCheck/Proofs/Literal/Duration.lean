import RuleCheck.Literal.Duration
import RuleCheck.Proofs.Number.Decimal28
import RuleCheck.Proofs.Text.Digits
import RuleCheck.Proofs.Time.Duration
import Mathlib.Data.List.TakeWhile

/-! # The grammar of durations

A written duration is a syntax tree: an optional sign, and a single zero or one or more parts, each a number
and a unit.  A text is read exactly if it is that of such a tree, whatever other trees begin like it: a
number ends where its digits do, and no unit goes on with what a number starts with.  What is read is the sum
of the parts, cut to whole microseconds before the sign is put to it, and only its size may keep it from
being a duration.
-/

namespace RuleCheck.Literal

open Number (Decimal28)
open Text (isDigit digitsValue)
open Time (Duration)

/-! ## Written numbers -/

/-- A number as it is written: digits, perhaps with a point and more digits after them, or before them. -/
structure Amount where
  whole : List Char
  /-- The digits after the point, if there is one. -/
  fraction : Option (List Char)
  digits : ∀ c ∈ whole ++ fraction.getD [], isDigit c = true
  some_digit : whole ++ fraction.getD [] ≠ []

namespace Amount

variable (amount : Amount)

def places : List Char :=
  amount.fraction.getD []

def text : List Char :=
  amount.whole ++
    match amount.fraction with
    | none => []
    | some places => '.' :: places

def value : ℚ :=
  digitsValue amount.whole + digitsValue amount.places / 10 ^ amount.places.length

def decimal : Decimal28 :=
  ⟨digitsValue (amount.whole ++ amount.places), -(amount.places.length : ℤ)⟩

theorem value_decimal : amount.decimal.value = amount.value := by
  simp only [decimal, Decimal28.value, value, Text.digitsValue_append, zpow_neg, zpow_natCast]
  push_cast
  field_simp

theorem readAmount?_text {c : Char} (hdigit : isDigit c = false) (hpoint : c ≠ '.') (rest : List Char) :
    readAmount? (amount.text ++ c :: rest) = some (amount.decimal, c :: rest) := by
  obtain ⟨whole, fraction, hdigits, hsome⟩ := amount
  rw [List.forall_mem_append] at hdigits
  have hstop : ∀ b ∈ (c :: rest).head?, isDigit b = false := by simpa using hdigit
  cases fraction with
  | none =>
      have hwhole := Text.span_isDigit hdigits.1 hstop
      have hne : whole ≠ [] := by simpa using hsome
      simp [readAmount?, text, decimal, places, hwhole, hpoint, hne]
  | some places =>
      have hdot : isDigit '.' = false := by decide
      have hwhole := @Text.span_isDigit whole ('.' :: (places ++ c :: rest)) hdigits.1 (by simpa using hdot)
      have hplaces : ∀ b ∈ places, isDigit b = true := hdigits.2
      have hfraction := Text.span_isDigit hplaces hstop
      have hne : whole = [] → places ≠ [] := by simpa using hsome
      simpa [readAmount?, text, decimal, Amount.places, hwhole, hfraction] using hne

end Amount

theorem exists_amount_of_readAmount? {s rest : List Char} {x : Decimal28}
    (h : readAmount? s = some (x, rest)) : ∃ amount : Amount, s = amount.text ++ rest ∧ x = amount.decimal := by
  have hdigits (s : List Char) : ∀ c ∈ s.takeWhile isDigit, isDigit c = true :=
    fun c hc => List.mem_takeWhile_imp hc
  have hwhole := hdigits s
  have hsplit := List.takeWhile_append_dropWhile (p := isDigit) (l := s)
  unfold readAmount? at h
  generalize s.takeWhile isDigit = whole at h hwhole hsplit
  generalize s.dropWhile isDigit = tail at h hsplit
  subst hsplit
  dsimp only at h
  split at h
  · rename_i places
    split at h
    · cases h
    · rename_i hsome
      cases h
      refine ⟨⟨whole, some (places.takeWhile isDigit), ?_, by simpa using hsome⟩, ?_, rfl⟩
      · exact List.forall_mem_append.2 ⟨hwhole, hdigits places⟩
      · simp [Amount.text, List.takeWhile_append_dropWhile]
  · split at h
    · cases h
    · rename_i hsome
      cases h
      exact ⟨⟨whole, none, by simpa using hwhole, by simpa using hsome⟩, by simp [Amount.text], rfl⟩

/-! ## Written units -/

/-- A unit of durations as it is written; millionths of a second have three spellings. -/
inductive DurationUnit where
  | nanosecond
  | microsecond
  | microsecondSign
  | microsecondLetter
  | millisecond
  | second
  | minute
  | hour
  deriving DecidableEq, Repr

namespace DurationUnit

def text : DurationUnit → List Char
  | nanosecond => ['n', 's']
  | microsecond => ['u', 's']
  | microsecondSign => ['\u00b5', 's']
  | microsecondLetter => ['\u03bc', 's']
  | millisecond => ['m', 's']
  | second => ['s']
  | minute => ['m']
  | hour => ['h']

def micros : DurationUnit → ℚ
  | nanosecond => 1 / 1000
  | microsecond | microsecondSign | microsecondLetter => 1
  | millisecond => 1000
  | second => 1000000
  | minute => 60 * 1000000
  | hour => 60 * 60 * 1000000

def decimal : DurationUnit → Decimal28
  | nanosecond => ⟨1, -3⟩
  | microsecond | microsecondSign | microsecondLetter => ⟨1, 0⟩
  | millisecond => ⟨1000, 0⟩
  | second => ⟨1000000, 0⟩
  | minute => ⟨60000000, 0⟩
  | hour => ⟨3600000000, 0⟩

theorem value_decimal (unit : DurationUnit) : unit.decimal.value = unit.micros := by
  cases unit <;> norm_num [decimal, micros, Decimal28.value]

/-- A unit is read whole, unless a minute is followed by what would make it another unit. -/
theorem readUnit?_text (unit : DurationUnit) {rest : List Char} (hrest : rest.head? ≠ some 's') :
    readUnit? (unit.text ++ rest) = some (unit.decimal, rest) := by
  cases unit with
  | minute =>
      cases rest with
      | nil => rfl
      | cons c rest =>
          have hne : c ≠ 's' := by simpa using hrest
          simp [text, decimal, readUnit?, hne]
  | _ => rfl

end DurationUnit

theorem exists_unit_of_readUnit? {s rest : List Char} {x : Decimal28} (h : readUnit? s = some (x, rest)) :
    ∃ unit : DurationUnit, s = unit.text ++ rest ∧ x = unit.decimal := by
  unfold readUnit? at h
  split at h
  case h_9 => cases h
  all_goals
    simp only [Option.some.injEq, Prod.mk.injEq] at h
    obtain ⟨rfl, rfl⟩ := h
  · exact ⟨.nanosecond, rfl, rfl⟩
  · exact ⟨.microsecond, rfl, rfl⟩
  · exact ⟨.microsecondSign, rfl, rfl⟩
  · exact ⟨.microsecondLetter, rfl, rfl⟩
  · exact ⟨.millisecond, rfl, rfl⟩
  · exact ⟨.second, rfl, rfl⟩
  · exact ⟨.minute, rfl, rfl⟩
  · exact ⟨.hour, rfl, rfl⟩

/-! ## Written parts -/

structure DurationPart where
  amount : Amount
  unit : DurationUnit

namespace DurationPart

variable (part : DurationPart)

def text : List Char :=
  part.amount.text ++ part.unit.text

def micros : ℚ :=
  part.amount.value * part.unit.micros

def product : Decimal28 :=
  part.amount.decimal.mul part.unit.decimal

theorem value_product (h : Decimal28.IsShort part.micros) : part.product.value = part.micros := by
  have hexact : part.amount.decimal.value * part.unit.decimal.value = part.micros := by
    rw [Amount.value_decimal, DurationUnit.value_decimal, micros]
  rw [product, Decimal28.value_mul (by rwa [hexact]), hexact]

theorem head?_text : ∃ c, part.text.head? = some c ∧ (isDigit c = true ∨ c = '.') := by
  obtain ⟨⟨whole, fraction, hdigits, hsome⟩, unit⟩ := part
  cases whole with
  | cons c whole => exact ⟨c, by simp [text, Amount.text], .inl (hdigits c (by simp))⟩
  | nil =>
      cases fraction with
      | none => simp at hsome
      | some places => exact ⟨'.', by simp [text, Amount.text], .inr rfl⟩

theorem two_le_length_text : 2 ≤ part.text.length := by
  have hamount : 0 < part.amount.text.length := by
    obtain ⟨⟨whole, fraction, hdigits, hsome⟩, unit⟩ := part
    cases fraction with
    | none => simpa [Amount.text, List.length_pos_iff] using hsome
    | some places => simp [Amount.text]
  have hunit : 0 < part.unit.text.length := by cases part.unit <;> decide
  rw [text, List.length_append]
  omega

theorem readPart?_text {rest : List Char} (hrest : rest.head? ≠ some 's') :
    readPart? (part.text ++ rest) = some (part.product, rest) := by
  obtain ⟨c, letters, hunit, hdigit, hpoint⟩ : ∃ c letters, part.unit.text = c :: letters ∧
      isDigit c = false ∧ c ≠ '.' := by
    cases part.unit <;> exact ⟨_, _, rfl, by decide, by decide⟩
  have hamount := part.amount.readAmount?_text hdigit hpoint (letters ++ rest)
  rw [← List.cons_append, ← hunit] at hamount
  simp [readPart?, text, hamount, part.unit.readUnit?_text hrest, product]

end DurationPart

theorem exists_part_of_readPart? {s rest : List Char} {x : Decimal28} (h : readPart? s = some (x, rest)) :
    ∃ part : DurationPart, s = part.text ++ rest ∧ x = part.product := by
  simp only [readPart?, bind, Option.bind_eq_some_iff, pure, Prod.exists, Option.some.injEq,
    Prod.mk.injEq] at h
  obtain ⟨number, afterNumber, hnumber, unit, rest', hunit, hproduct, rfl⟩ := h
  obtain ⟨amount, rfl, rfl⟩ := exists_amount_of_readAmount? hnumber
  obtain ⟨unit, rfl, rfl⟩ := exists_unit_of_readUnit? hunit
  exact ⟨⟨amount, unit⟩, by simp [DurationPart.text], hproduct.symm⟩

/-! ## Sums of parts -/

namespace DurationPart

def textOf (parts : List DurationPart) : List Char :=
  parts.flatMap text

def addTo (total : Decimal28) (parts : List DurationPart) : Decimal28 :=
  parts.foldl (fun total part => total.add part.product) total

def microsOf (parts : List DurationPart) : ℚ :=
  (parts.map micros).sum

theorem head?_textOf (parts : List DurationPart) : (textOf parts).head? ≠ some 's' := by
  cases parts with
  | nil => simp [textOf]
  | cons part parts =>
      obtain ⟨c, hhead, hstart⟩ := part.head?_text
      have hne : c ≠ 's' := by
        rintro rfl
        exact absurd hstart (by decide)
      have hfirst : (textOf (part :: parts)).head? = some c := by simp [textOf, List.head?_append, hhead]
      simpa [hfirst] using hne

theorem length_textOf_cons (part : DurationPart) (parts : List DurationPart) :
    (textOf (part :: parts)).length = part.text.length + (textOf parts).length := by
  simp [textOf]

theorem length_le_textOf (parts : List DurationPart) : parts.length ≤ (textOf parts).length := by
  induction parts with
  | nil => exact Nat.le_refl _
  | cons part parts ih =>
      have htwo := part.two_le_length_text
      rw [length_textOf_cons, List.length_cons]
      omega

theorem sumParts?_textOf (parts : List DurationPart) {fuel : Nat} (hfuel : parts.length ≤ fuel)
    (total : Decimal28) : sumParts? fuel total (textOf parts) = some (addTo total parts) := by
  induction parts generalizing fuel total with
  | nil =>
      cases fuel <;> rfl
  | cons part parts ih =>
      cases fuel with
      | zero => simp at hfuel
      | succ fuel =>
          have hread : readPart? (textOf (part :: parts)) = some (part.product, textOf parts) :=
            part.readPart?_text (head?_textOf parts)
          obtain ⟨c, letters, htext⟩ : ∃ c letters, textOf (part :: parts) = c :: letters := by
            have htwo := part.two_le_length_text
            exact List.exists_cons_of_length_pos (by rw [length_textOf_cons]; omega)
          rw [htext] at hread ⊢
          rw [sumParts?, hread]
          exact ih (Nat.le_of_succ_le_succ hfuel) _

theorem exists_parts_of_sumParts? {fuel : Nat} {total x : Decimal28} {s : List Char}
    (h : sumParts? fuel total s = some x) : ∃ parts, s = textOf parts ∧ x = addTo total parts := by
  induction fuel generalizing total s with
  | zero =>
      cases s with
      | nil => exact ⟨[], rfl, (Option.some.inj h).symm⟩
      | cons c s => cases h
  | succ fuel ih =>
      cases s with
      | nil => exact ⟨[], rfl, (Option.some.inj h).symm⟩
      | cons c s =>
          simp only [sumParts?, bind, Option.bind_eq_some_iff, Prod.exists] at h
          obtain ⟨product, rest, hread, hrest⟩ := h
          obtain ⟨part, htext, rfl⟩ := exists_part_of_readPart? hread
          obtain ⟨parts, rfl, rfl⟩ := ih hrest
          exact ⟨part :: parts, htext, rfl⟩

theorem value_addTo {parts : List DurationPart} (hparts : ∀ part ∈ parts, Decimal28.IsShort part.micros)
    {total : Decimal28} (hsums : ∀ count, Decimal28.IsShort (total.value + microsOf (parts.take count))) :
    (addTo total parts).value = total.value + microsOf parts := by
  induction parts generalizing total with
  | nil => simp [addTo, microsOf]
  | cons part parts ih =>
      rw [List.forall_mem_cons] at hparts
      have hproduct := part.value_product hparts.1
      have hfirst : (total.add part.product).value = total.value + part.micros := by
        have hshort := hsums 1
        rw [List.take_succ_cons, List.take_zero] at hshort
        rw [Decimal28.value_add, hproduct]
        simpa [hproduct, microsOf] using hshort
      have hrest := @ih hparts.2 (total.add part.product) fun count => by
        have hshort := hsums (count + 1)
        rw [List.take_succ_cons] at hshort
        simpa [hfirst, microsOf, add_assoc] using hshort
      show (addTo (total.add part.product) parts).value = _
      rw [hrest, hfirst, add_assoc]
      simp [microsOf]

end DurationPart

/-! ## Written durations -/

/-- What stands after the sign of a duration: a single zero, or parts. -/
inductive DurationBody where
  | zero
  | parts (first : DurationPart) (others : List DurationPart)

namespace DurationBody

variable (body : DurationBody)

def list : DurationBody → List DurationPart
  | zero => []
  | parts first others => first :: others

def text : DurationBody → List Char
  | zero => ['0']
  | parts first others => DurationPart.textOf (first :: others)

def micros : Nat :=
  ⌊DurationPart.microsOf body.list⌋₊

/-- The whole microseconds, as they are computed. -/
def counted : Nat :=
  (DurationPart.addTo ⟨0, 0⟩ body.list).whole

/-- Whether every product of a number and its unit and every running sum has at most 28 significant digits. -/
def IsShort : Prop :=
  (∀ part ∈ body.list, Decimal28.IsShort part.micros) ∧
    ∀ count, Decimal28.IsShort (DurationPart.microsOf (body.list.take count))

theorem counted_eq_micros {body : DurationBody} (h : body.IsShort) : body.counted = body.micros := by
  have hzero : (⟨0, 0⟩ : Decimal28).value = 0 := by simp [Decimal28.value]
  have hvalue := @DurationPart.value_addTo body.list h.1 ⟨0, 0⟩ (by simpa [hzero] using h.2)
  rw [counted, micros, Decimal28.whole_eq, hvalue, hzero, zero_add]

theorem readMicros?_text : readMicros? body.text = some body.counted := by
  cases body with
  | zero => rfl
  | parts first others =>
      have hsum := DurationPart.sumParts?_textOf _ (DurationPart.length_le_textOf (first :: others)) ⟨0, 0⟩
      have hlong : 2 ≤ (DurationPart.textOf (first :: others)).length := by
        have htwo := first.two_le_length_text
        rw [DurationPart.length_textOf_cons]
        omega
      rw [text]
      unfold readMicros?
      split
      · rename_i hnil
        simp [hnil] at hlong
      · rename_i hzero
        simp [hzero] at hlong
      · rw [hsum]
        rfl

theorem exists_of_readMicros? {s : List Char} {n : Nat} (h : readMicros? s = some n) :
    ∃ body : DurationBody, s = body.text := by
  unfold readMicros? at h
  split at h
  · cases h
  · exact ⟨.zero, rfl⟩
  · rename_i hnil hzero
    rw [Option.map_eq_some_iff] at h
    obtain ⟨x, hsum, -⟩ := h
    obtain ⟨parts, rfl, -⟩ := DurationPart.exists_parts_of_sumParts? hsum
    cases parts with
    | nil => exact absurd rfl hnil
    | cons first others => exact ⟨.parts first others, rfl⟩

/-- No sign starts what stands after a sign. -/
theorem head?_text : body.text.head? ≠ some '-' ∧ body.text.head? ≠ some '+' := by
  cases body with
  | zero => decide
  | parts first others =>
      obtain ⟨c, hhead, hstart⟩ := first.head?_text
      have hfirst : (text (.parts first others)).head? = some c := by
        simp [text, DurationPart.textOf, List.head?_append, hhead]
      have hminus : c ≠ '-' := by
        rintro rfl
        exact absurd hstart (by decide)
      have hplus : c ≠ '+' := by
        rintro rfl
        exact absurd hstart (by decide)
      simpa [hfirst] using ⟨hminus, hplus⟩

end DurationBody

inductive DurationSign where
  | absent
  | plus
  | minus
  deriving DecidableEq, Repr

namespace DurationSign

def text : DurationSign → List Char
  | absent => []
  | plus => ['+']
  | minus => ['-']

def signed : DurationSign → Nat → Int
  | minus, n => -(n : Int)
  | _, n => n

end DurationSign

/-- A duration as it is written. -/
structure WrittenDuration where
  sign : DurationSign
  body : DurationBody

namespace WrittenDuration

def text (w : WrittenDuration) : String :=
  String.ofList (w.sign.text ++ w.body.text)

def micros (w : WrittenDuration) : Int :=
  w.sign.signed w.body.micros

/-- The microseconds, as they are computed. -/
def counted (w : WrittenDuration) : Int :=
  w.sign.signed w.body.counted

theorem counted_eq_micros {w : WrittenDuration} (h : w.body.IsShort) : w.counted = w.micros := by
  rw [counted, micros, DurationBody.counted_eq_micros h]

theorem readDuration_text (w : WrittenDuration) :
    readDuration w.text = (Duration.ofMicros w.counted).mapError .durationOverflow := by
  obtain ⟨sign, body⟩ := w
  have hread := body.readMicros?_text
  unfold readDuration
  cases sign with
  | minus => simp [text, DurationSign.text, hread, counted, DurationSign.signed]
  | plus => simp [text, DurationSign.text, hread, counted, DurationSign.signed]
  | absent =>
      obtain ⟨hminus, hplus⟩ := body.head?_text
      have htext : (text ⟨.absent, body⟩).toList = body.text := by simp [text, DurationSign.text]
      rw [htext]
      split
      rename_i negative rest hsplit
      split at hsplit
      · rename_i hfirst
        simp [hfirst] at hminus
      · rename_i hfirst
        simp [hfirst] at hplus
      · cases hsplit
        simp [hread, counted, DurationSign.signed]

theorem exists_of_readDuration {text : String} (h : readDuration text ≠ .error (.notDuration text)) :
    ∃ w : WrittenDuration, w.text = text := by
  obtain ⟨letters, rfl⟩ : ∃ letters, text = String.ofList letters := ⟨text.toList, by simp⟩
  unfold readDuration at h
  rw [String.toList_ofList] at h
  split at h
  rename_i negative rest hsplit
  cases hread : readMicros? rest with
  | none => simp [hread] at h
  | some n =>
      obtain ⟨body, rfl⟩ := DurationBody.exists_of_readMicros? hread
      split at hsplit
      · cases hsplit
        exact ⟨⟨.minus, body⟩, rfl⟩
      · cases hsplit
        exact ⟨⟨.plus, body⟩, rfl⟩
      · cases hsplit
        exact ⟨⟨.absent, body⟩, rfl⟩

end WrittenDuration

/--
A text is a duration exactly if it is that of a syntax tree; any other text is refused for how it is written.  The
duration is the sum of the parts, cut to whole microseconds and then negated if the sign says so, as long as no
product and no running sum has more than 28 significant digits, and only its size can keep it from being held.
-/
theorem readDuration_grammar (text : String) :
    ((∃ w : WrittenDuration, w.text = text) ↔
      (∃ d, readDuration text = .ok d) ∨
        ∃ overflow, readDuration text = .error (.durationOverflow overflow)) ∧
    ((¬ ∃ w : WrittenDuration, w.text = text) → readDuration text = .error (.notDuration text)) ∧
    ∀ w : WrittenDuration, w.text = text →
      ∃ micros : Int, (w.body.IsShort → micros = w.micros) ∧
        readDuration text = if Duration.IsHeld micros then .ok ⟨micros⟩
          else .error (.durationOverflow ⟨(Duration.mk micros).days⟩) := by
  have hheld (w : WrittenDuration) (hw : w.text = text) :
      readDuration text = if Duration.IsHeld w.counted then .ok ⟨w.counted⟩
        else .error (.durationOverflow ⟨(Duration.mk w.counted).days⟩) := by
    rw [← hw, w.readDuration_text, Duration.ofMicros_eq]
    split <;> rfl
  refine ⟨⟨?_, ?_⟩, ?_, fun w hw => ⟨w.counted, WrittenDuration.counted_eq_micros, hheld w hw⟩⟩
  · rintro ⟨w, hw⟩
    rw [hheld w hw]
    split
    · exact .inl ⟨_, rfl⟩
    · exact .inr ⟨_, rfl⟩
  · rintro (⟨d, hd⟩ | ⟨overflow, hoverflow⟩)
    · exact WrittenDuration.exists_of_readDuration (by simp [hd])
    · exact WrittenDuration.exists_of_readDuration (by simp [hoverflow])
  · intro hnone
    by_contra hread
    exact hnone (WrittenDuration.exists_of_readDuration hread)

/-! ## A duration with a sign -/

def twoHours : DurationPart :=
  ⟨⟨['2'], none, List.all_eq_true.1 (by decide), by decide⟩, .hour⟩

/-- Three quarters of a microsecond, in decimal places. -/
def threeQuarters : DurationPart :=
  ⟨⟨['0'], some ['7', '5'], List.all_eq_true.1 (by decide), by decide⟩, .microsecond⟩

def twoHoursBack : WrittenDuration where
  sign := .minus
  body := .parts twoHours [threeQuarters]

theorem micros_twoHours : twoHours.micros = 7200000000 := by
  have hwhole : digitsValue ['2'] = 2 := by decide
  have hnone : digitsValue [] = 0 := rfl
  norm_num [twoHours, DurationPart.micros, Amount.value, Amount.places, DurationUnit.micros, hwhole, hnone]

theorem micros_threeQuarters : threeQuarters.micros = 3 / 4 := by
  have hwhole : digitsValue ['0'] = 0 := by decide
  have hplaces : digitsValue ['7', '5'] = 75 := by decide
  norm_num [threeQuarters, DurationPart.micros, Amount.value, Amount.places, DurationUnit.micros, hwhole,
    hplaces]

theorem isShort_twoHoursBack : twoHoursBack.body.IsShort := by
  have hfirst : Decimal28.IsShort 7200000000 := ⟨7200000000, 0, by decide, by norm_num⟩
  have hsecond : Decimal28.IsShort (3 / 4) := ⟨75, -2, by decide, by norm_num⟩
  have hboth : Decimal28.IsShort (7200000000 + 3 / 4) := ⟨720000000075, -2, by decide, by norm_num⟩
  constructor
  · simp [twoHoursBack, DurationBody.list, micros_twoHours, micros_threeQuarters, hfirst, hsecond]
  · intro count
    match count with
    | 0 => exact ⟨0, 0, by decide, by simp [DurationPart.microsOf]⟩
    | 1 => simpa [twoHoursBack, DurationBody.list, DurationPart.microsOf, micros_twoHours] using hfirst
    | count + 2 =>
        simpa [twoHoursBack, DurationBody.list, DurationPart.microsOf, micros_twoHours,
          micros_threeQuarters] using hboth

theorem micros_twoHoursBack : twoHoursBack.micros = -7200000000 := by
  have hfloor : ⌊(7200000000 + 3 / 4 : ℚ)⌋₊ = 7200000000 := by
    rw [Nat.floor_eq_iff (by norm_num)]
    norm_num
  simp [WrittenDuration.micros, twoHoursBack, DurationSign.signed, DurationBody.micros, DurationBody.list,
    DurationPart.microsOf, micros_twoHours, micros_threeQuarters, hfloor]

/-- What is finer than a microsecond is cut off before the sign is put to the rest. -/
theorem readDuration_grammar_hours :
    twoHoursBack.text = "-2h0.75us" ∧ twoHoursBack.body.IsShort ∧
      readDuration "-2h0.75us" = .ok ⟨-7200000000⟩ := by
  have htext : twoHoursBack.text = "-2h0.75us" := by decide +kernel
  obtain ⟨-, -, hread⟩ := readDuration_grammar "-2h0.75us"
  obtain ⟨micros, hexact, hresult⟩ := hread twoHoursBack htext
  refine ⟨htext, isShort_twoHoursBack, ?_⟩
  rw [hresult, hexact isShort_twoHoursBack, micros_twoHoursBack]
  rfl

end RuleCheck.Literal
