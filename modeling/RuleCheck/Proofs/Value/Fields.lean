import RuleCheck.Visit.Record

/-! # Fields of records and boxes

Exchanging the value of one field leaves all other fields alone.
-/

namespace RuleCheck.Value

theorem lookup_putSlot (name : String) (new : Value) (slots : List (String × Value))
    (other : String) :
    (putSlot name new slots).lookup other =
      if other = name then (slots.lookup name).map fun _ => new else slots.lookup other := by
  induction slots with
  | nil => simp [putSlot]
  | cons slot slots ih =>
      obtain ⟨own, old⟩ := slot
      by_cases hown : own = name
      · subst hown
        by_cases hother : other = own
        · simp [putSlot, hother]
        · have : (other == own) = false := by simpa using hother
          simp [putSlot, List.lookup_cons, this, hother]
      · have hname : (name == own) = false := by simpa using Ne.symm hown
        by_cases hother : other = own
        · subst hother
          simp [putSlot, hown]
        · have : (other == own) = false := by simpa using hother
          simp [putSlot, List.lookup_cons, hown, hname, this, ih]

theorem fieldContent?_withField (value : Value) (name : String) (new : Value) (other : String) :
    (value.withField name new).fieldContent? other =
      if other = name then (value.fieldContent? name).map fun _ => new
      else value.fieldContent? other := by
  cases value with
  | record head slots => exact lookup_putSlot name new slots other
  | box content =>
      simp only [withField, fieldContent?]
      by_cases hsame : other = name
      · subst hsame
        by_cases hname : other = Schema.boxField.name <;> simp [hname]
      · by_cases hname : name = Schema.boxField.name
        · have : other ≠ Schema.boxField.name := hname ▸ hsame
          simp [hsame, this]
        · simp [hsame, hname]
  | _ => simp [withField, fieldContent?, field?]

theorem fieldContent?_withField_self {value content : Value} {name : String} (new : Value)
    (h : value.fieldContent? name = some content) :
    (value.withField name new).fieldContent? name = some new := by
  simp [fieldContent?_withField, h]

theorem fieldContent?_withField_of_ne {name other : String} (value new : Value)
    (h : other ≠ name) :
    (value.withField name new).fieldContent? other = value.fieldContent? other := by
  simp [fieldContent?_withField, h]

theorem fieldContent?_withField_eq_none {value new : Value} {name other : String}
    (h : (value.withField name new).fieldContent? other = none) :
    value.fieldContent? other = none := by
  rw [fieldContent?_withField] at h
  split at h
  · rename_i hother
    rw [hother]
    simpa using h
  · exact h

theorem putSlot_comm {name other : String} (h : name ≠ other) (new last : Value)
    (slots : List (String × Value)) :
    putSlot other last (putSlot name new slots) = putSlot name new (putSlot other last slots) := by
  induction slots with
  | nil => rfl
  | cons slot slots ih =>
      obtain ⟨own, old⟩ := slot
      by_cases hname : own = name
      · have hother : own ≠ other := hname ▸ h
        simp [putSlot, hname, h]
      · by_cases hother : own = other
        · simp [putSlot, hother, h.symm]
        · simp [putSlot, hname, hother, ih]

/-- The values of two fields are exchanged in either order. -/
theorem withField_comm {name other : String} (h : name ≠ other) (value new last : Value) :
    (value.withField name new).withField other last =
      (value.withField other last).withField name new := by
  cases value with
  | record head slots => exact congrArg (record head) (putSlot_comm h new last slots)
  | box content =>
      by_cases hname : name = Schema.boxField.name
      · have hother : other ≠ Schema.boxField.name := fun hother => h (hname.trans hother.symm)
        simp [withField, hother]
      · simp [withField, hname]
  | _ => rfl

theorem map_snd_zipWith {α : Type} {pairs : List (α × Value)} {news : List Value}
    (hlength : news.length = pairs.length) :
    (List.zipWith (fun pair new => (pair.1, new)) pairs news).map Prod.snd = news := by
  induction pairs generalizing news with
  | nil =>
      cases news with
      | nil => rfl
      | cons new news => simp at hlength
  | cons pair pairs ih =>
      cases news with
      | nil => simp at hlength
      | cons new news =>
          have htail := ih (Nat.succ.inj hlength)
          simp [htail]

end RuleCheck.Value
