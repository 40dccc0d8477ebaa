import RuleCheck.Proofs.Value.Fields
import RuleCheck.Text.Blank
import RuleCheck.Value.Zero

/-! # Hollow values

A value is hollow if nothing is left of it once the blanks around its texts are taken away: a text of blanks,
a zero of another kind, or a record whose slots are all hollow.
-/

namespace RuleCheck.Value

mutual

/-- Whether nothing is left of a value once the blanks around its texts are taken away. -/
def isHollow : Value → Bool
  | .scalar _ (.text s) => s.toList.all Text.isBlank
  | .record _ slots => slotsAreHollow slots
  | other => other.isZero

def slotsAreHollow : List (String × Value) → Bool
  | [] => true
  | (_, value) :: slots => isHollow value && slotsAreHollow slots

end

mutual

theorem isHollow_of_isZero (value : Value) (h : value.isZero = true) : value.isHollow = true := by
  cases value with
  | record head slots =>
      simp only [isZero] at h
      simpa only [isHollow] using slotsAreHollow_of_slotsAreZero slots h
  | scalar origin content =>
      cases content with
      | text s =>
          obtain rfl : s = "" := by simpa [isZero, isZeroContent, Scalar.isZero] using h
          rfl
      | _ => exact h
  | _ => exact h

theorem slotsAreHollow_of_slotsAreZero (slots : List (String × Value))
    (h : slotsAreZero slots = true) : slotsAreHollow slots = true := by
  cases slots with
  | nil => rfl
  | cons slot slots =>
      simp only [slotsAreZero, Bool.and_eq_true] at h
      simp only [slotsAreHollow, Bool.and_eq_true]
      exact ⟨isHollow_of_isZero slot.2 h.1, slotsAreHollow_of_slotsAreZero slots h.2⟩

end

theorem isHollow_of_box {old new : Value} (hnull : old.isNull = false → new.isNull = false)
    (h : (box new).isHollow = true) : (box old).isHollow = true := by
  have hbox (content : Value) : (box content).isHollow = content.isNull := by
    simp [isHollow, isZero, isZeroContent]
  rw [hbox] at h ⊢
  cases hold : old.isNull with
  | true => rfl
  | false =>
      rw [hnull hold] at h
      cases h

theorem slotsAreHollow_iff {slots : List (String × Value)} :
    slotsAreHollow slots = true ↔ ∀ value ∈ slots.map Prod.snd, value.isHollow = true := by
  induction slots with
  | nil => simp [slotsAreHollow]
  | cons slot slots ih => simp [slotsAreHollow, ih]

/-- A record that is hollow once the value of a field was exchanged was hollow if the field was. -/
theorem slotsAreHollow_of_putSlot {name : String} {old new : Value} {slots : List (String × Value)}
    (hold : slots.lookup name = some old) (hslot : new.isHollow = true → old.isHollow = true)
    (h : slotsAreHollow (putSlot name new slots) = true) : slotsAreHollow slots = true := by
  induction slots with
  | nil => rfl
  | cons slot slots ih =>
      obtain ⟨own, content⟩ := slot
      by_cases hown : own = name
      · subst hown
        obtain rfl : content = old := by simpa using hold
        simp only [putSlot, beq_self_eq_true, if_true, slotsAreHollow, Bool.and_eq_true] at h ⊢
        exact ⟨hslot h.1, h.2⟩
      · have hother : (name == own) = false := by simpa using Ne.symm hown
        rw [List.lookup_cons, hother] at hold
        simp only [putSlot, beq_iff_eq, hown, if_false, slotsAreHollow, Bool.and_eq_true] at h ⊢
        exact ⟨h.1, ih hold h.2⟩

end RuleCheck.Value
