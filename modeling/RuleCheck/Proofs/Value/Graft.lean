import RuleCheck.Proofs.Visit.Passing
import RuleCheck.Value.Graft

/-! # What is left of an object, step by step

A value that is what is left of an old object once a walk has arrived at it was reached by changes in
place alone.  Such changes can be made one after another, and inside any node.
-/

namespace RuleCheck.Value

mutual

theorem graft_self : (value : Value) → value.graft value = value
  | .null | .scalar .. | .foreign _ | .member .. | .range .. | .box _ => by simp [graft]
  | .sequence kind derived items => by simp [graft, children, graftItems_self items]
  | .mapping kind derived entries => by simp [graft, children, graftEntries_self entries]
  | .record head slots => by simp [graft, children, graftSlots_self slots]

theorem graftItems_self : (items : List Value) → graftItems items items = items
  | [] => by simp [graftItems]
  | value :: items => by simp [graftItems, graft_self value, graftItems_self items]

theorem graftEntries_self :
    (entries : List (Value × Value)) → graftEntries entries (entries.map Prod.snd) = entries
  | [] => by simp [graftEntries]
  | (key, value) :: entries => by
      simp [graftEntries, graft_self value, graftEntries_self entries]

theorem graftSlots_self :
    (slots : List (String × Value)) → graftSlots slots (slots.map Prod.snd) = slots
  | [] => by simp [graftSlots]
  | (name, value) :: slots => by simp [graftSlots, graft_self value, graftSlots_self slots]

end

/-! ## Nodes that cannot be changed themselves -/

/-- An object that can be changed in place holds whatever a walk arrives at. -/
theorem graft_of_isMutable {old : Value} (h : old.isMutable = true) (new : Value) :
    old.graft new = new := by
  cases old <;> simp_all [graft, isMutable]

theorem graft_sequence_eq_iff {kind : SequenceKind} (hfixed : kind.isMutable = false)
    (derived : Option String) (items : List Value) (value : Value) :
    (Value.sequence kind derived items).graft value = value ↔
      ∃ news, value = .sequence kind derived news ∧ graftItems items news = news := by
  simp only [graft, hfixed, Bool.false_eq_true, if_false]
  constructor
  · intro h
    cases value <;> first
      | (simp only [sequence.injEq, children] at h
         obtain ⟨rfl, rfl, hitems⟩ := h
         exact ⟨_, rfl, hitems⟩)
      | cases h
  · rintro ⟨news, rfl, hitems⟩
    simp [children, hitems]

theorem graft_mapping_eq_iff {kind : MappingKind} (hfixed : kind.isMutable = false)
    (derived : Option String) (entries : List (Value × Value)) (value : Value) :
    (Value.mapping kind derived entries).graft value = value ↔
      ∃ news, value = .mapping kind derived news ∧
        graftEntries entries (news.map Prod.snd) = news := by
  simp only [graft, hfixed, Bool.false_eq_true, if_false]
  constructor
  · intro h
    cases value <;> first
      | (simp only [mapping.injEq, children] at h
         obtain ⟨rfl, rfl, hentries⟩ := h
         exact ⟨_, rfl, hentries⟩)
      | cases h
  · rintro ⟨news, rfl, hentries⟩
    simp [children, hentries]

theorem graft_record_eq_iff {head : RecordHead} (hfixed : head.isMutable = false)
    (slots : List (String × Value)) (value : Value) :
    (Value.record head slots).graft value = value ↔
      ∃ news, value = .record head news ∧ graftSlots slots (news.map Prod.snd) = news := by
  simp only [graft, hfixed, Bool.false_eq_true, if_false]
  constructor
  · intro h
    cases value <;> first
      | (simp only [record.injEq, children] at h
         obtain ⟨rfl, hslots⟩ := h
         exact ⟨_, rfl, hslots⟩)
      | cases h
  · rintro ⟨news, rfl, hslots⟩
    simp [children, hslots]

/-! ## Changes one after another -/

mutual

theorem graft_trans : (old value new : Value) → old.graft value = value → value.graft new = new →
    old.graft new = new
  | .null, _, _, hfirst, hsecond | .scalar .., _, _, hfirst, hsecond
  | .foreign _, _, _, hfirst, hsecond | .member .., _, _, hfirst, hsecond
  | .range .., _, _, hfirst, hsecond => by
      simp only [graft] at hfirst
      rwa [← hfirst] at hsecond
  | .box _, _, _, _, _ => by simp [graft]
  | .sequence kind derived items, value, new, hfirst, hsecond => by
      cases hkind : kind.isMutable with
      | true => simp [graft, hkind]
      | false =>
          obtain ⟨values, rfl, hvalues⟩ := (graft_sequence_eq_iff hkind _ _ _).1 hfirst
          obtain ⟨news, rfl, hnews⟩ := (graft_sequence_eq_iff hkind _ _ _).1 hsecond
          exact (graft_sequence_eq_iff hkind _ _ _).2
            ⟨news, rfl, graftItems_trans items values news hvalues hnews⟩
  | .mapping kind derived entries, value, new, hfirst, hsecond => by
      cases hkind : kind.isMutable with
      | true => simp [graft, hkind]
      | false =>
          obtain ⟨values, rfl, hvalues⟩ := (graft_mapping_eq_iff hkind _ _ _).1 hfirst
          obtain ⟨news, rfl, hnews⟩ := (graft_mapping_eq_iff hkind _ _ _).1 hsecond
          exact (graft_mapping_eq_iff hkind _ _ _).2
            ⟨news, rfl, graftEntries_trans entries values news hvalues hnews⟩
  | .record head slots, value, new, hfirst, hsecond => by
      cases hhead : head.isMutable with
      | true => simp [graft, hhead]
      | false =>
          obtain ⟨values, rfl, hvalues⟩ := (graft_record_eq_iff hhead _ _).1 hfirst
          obtain ⟨news, rfl, hnews⟩ := (graft_record_eq_iff hhead _ _).1 hsecond
          exact (graft_record_eq_iff hhead _ _).2
            ⟨news, rfl, graftSlots_trans slots values news hvalues hnews⟩

theorem graftItems_trans : (olds values news : List Value) → graftItems olds values = values →
    graftItems values news = news → graftItems olds news = news
  | [], values, news, hfirst, hsecond => by
      simp only [graftItems] at hfirst
      rwa [← hfirst] at hsecond
  | old :: olds, [], news, hfirst, hsecond => by simp [graftItems] at hfirst
  | old :: olds, value :: values, [], hfirst, hsecond => by simp [graftItems] at hsecond
  | old :: olds, value :: values, new :: news, hfirst, hsecond => by
      simp only [graftItems, List.cons.injEq] at hfirst hsecond ⊢
      exact ⟨graft_trans old value new hfirst.1 hsecond.1,
        graftItems_trans olds values news hfirst.2 hsecond.2⟩

theorem graftEntries_trans : (olds values news : List (Value × Value)) →
    graftEntries olds (values.map Prod.snd) = values →
    graftEntries values (news.map Prod.snd) = news → graftEntries olds (news.map Prod.snd) = news
  | [], values, news, hfirst, hsecond => by
      simp only [graftEntries] at hfirst
      rwa [← hfirst] at hsecond
  | old :: olds, [], news, hfirst, hsecond => by simp [graftEntries] at hfirst
  | old :: olds, value :: values, [], hfirst, hsecond => by simp [graftEntries] at hsecond
  | (key, old) :: olds, (key', value) :: values, (key'', new) :: news, hfirst, hsecond => by
      simp only [List.map_cons, graftEntries, List.cons.injEq, Prod.mk.injEq] at hfirst hsecond ⊢
      obtain ⟨⟨rfl, hvalue⟩, hvalues⟩ := hfirst
      obtain ⟨⟨rfl, hnew⟩, hnews⟩ := hsecond
      exact ⟨⟨rfl, graft_trans old value new hvalue hnew⟩,
        graftEntries_trans olds values news hvalues hnews⟩

theorem graftSlots_trans : (olds values news : List (String × Value)) →
    graftSlots olds (values.map Prod.snd) = values →
    graftSlots values (news.map Prod.snd) = news → graftSlots olds (news.map Prod.snd) = news
  | [], values, news, hfirst, hsecond => by
      simp only [graftSlots] at hfirst
      rwa [← hfirst] at hsecond
  | old :: olds, [], news, hfirst, hsecond => by simp [graftSlots] at hfirst
  | old :: olds, value :: values, [], hfirst, hsecond => by simp [graftSlots] at hsecond
  | (name, old) :: olds, (name', value) :: values, (name'', new) :: news, hfirst, hsecond => by
      simp only [List.map_cons, graftSlots, List.cons.injEq, Prod.mk.injEq] at hfirst hsecond ⊢
      obtain ⟨⟨rfl, hvalue⟩, hvalues⟩ := hfirst
      obtain ⟨⟨rfl, hnew⟩, hnews⟩ := hsecond
      exact ⟨⟨rfl, graft_trans old value new hvalue hnew⟩,
        graftSlots_trans olds values news hvalues hnews⟩

end

/-! ## Changes inside a node -/

theorem graftSlots_putSlot {name : String} {content new : Value} {slots : List (String × Value)}
    (hcontent : slots.lookup name = some content) (h : content.graft new = new) :
    graftSlots slots ((putSlot name new slots).map Prod.snd) = putSlot name new slots := by
  induction slots with
  | nil => simp at hcontent
  | cons slot slots ih =>
      obtain ⟨own, old⟩ := slot
      by_cases hname : own = name
      · subst hname
        simp only [List.lookup_cons, beq_self_eq_true, Option.some.injEq] at hcontent
        subst hcontent
        simp [putSlot, graftSlots, h, graftSlots_self]
      · have hother : (name == own) = false := by simpa using Ne.symm hname
        simp only [List.lookup_cons, hother] at hcontent
        simp [putSlot, hname, graftSlots, graft_self, ih hcontent]

/-- A field changed in place is a change in place of the record. -/
theorem graft_withField {record content new : Value} {name : String}
    (hcontent : record.fieldContent? name = some content) (h : content.graft new = new) :
    record.graft (record.withField name new) = record.withField name new := by
  cases record with
  | record head slots =>
      cases hhead : head.isMutable with
      | true => simp [withField, graft, hhead]
      | false =>
          exact (graft_record_eq_iff hhead _ _).2 ⟨_, rfl, graftSlots_putSlot hcontent h⟩
  | box old => simp [graft]
  | _ => simp [fieldContent?, field?] at hcontent

theorem graftSlots_lookup {slots news : List (String × Value)}
    (h : graftSlots slots (news.map Prod.snd) = news) {name : String} {old new : Value}
    (hold : slots.lookup name = some old) (hnew : news.lookup name = some new) :
    old.graft new = new := by
  induction slots generalizing news with
  | nil => simp at hold
  | cons slot slots ih =>
      obtain ⟨own, value⟩ := slot
      cases news with
      | nil => simp at hnew
      | cons slot' news =>
          obtain ⟨own', value'⟩ := slot'
          simp only [List.map_cons, graftSlots, List.cons.injEq, Prod.mk.injEq] at h
          obtain ⟨⟨rfl, hvalue⟩, hrest⟩ := h
          cases hname : name == own with
          | true =>
              simp only [List.lookup_cons, hname, Option.some.injEq] at hold hnew
              rwa [← hold, ← hnew]
          | false =>
              simp only [List.lookup_cons, hname] at hold hnew
              exact ih hrest hold hnew

theorem graft_fieldContent {value final old new : Value} {name : String}
    (hfixed : value.isMutable = false) (h : value.graft final = final)
    (hold : value.fieldContent? name = some old) (hnew : final.fieldContent? name = some new) :
    old.graft new = new := by
  cases value with
  | record head slots =>
      obtain ⟨news, rfl, hslots⟩ := (graft_record_eq_iff hfixed _ _).1 h
      exact graftSlots_lookup hslots hold hnew
  | box content => cases hfixed
  | _ => simp [fieldContent?, field?] at hold

theorem graftItems_each {index : Nat} {replaced : Bool} {items news : List Value}
    (h : Visits.Each (fun own _ value new => own = false → value.graft new = new) replaced index
      items news) (hreplaced : replaced = false) : graftItems items news = news := by
  induction h with
  | nil => simp [graftItems]
  | cons head _ ih =>
      obtain ⟨hown, hlater⟩ := Bool.or_eq_false_iff.1 hreplaced
      simp [graftItems, head hown, ih hlater]

theorem graftSlots_zipWith {slots : List (String × Value)} {news : List Value}
    (h : graftItems (slots.map Prod.snd) news = news) :
    graftSlots slots ((List.zipWith (fun slot item => (slot.1, item)) slots news).map Prod.snd) =
      List.zipWith (fun slot item => (slot.1, item)) slots news := by
  induction slots generalizing news with
  | nil => simp [graftSlots]
  | cons slot slots ih =>
      cases news with
      | nil => simp [graftItems] at h
      | cons new news =>
          simp only [List.map_cons, graftItems, List.cons.injEq] at h
          obtain ⟨name, old⟩ := slot
          simp only [List.zipWith_cons_cons, List.map_cons, graftSlots, h.1, ih h.2]

theorem graftEntries_zipWith {entries : List (Value × Value)} {news : List Value}
    (h : graftItems (entries.map Prod.snd) news = news) :
    graftEntries entries
        ((List.zipWith (fun entry new => (entry.1, new)) entries news).map Prod.snd) =
      List.zipWith (fun entry new => (entry.1, new)) entries news := by
  induction entries generalizing news with
  | nil => simp [graftEntries]
  | cons entry entries ih =>
      cases news with
      | nil => simp [graftItems] at h
      | cons new news =>
          simp only [List.map_cons, graftItems, List.cons.injEq] at h
          obtain ⟨key, old⟩ := entry
          simp only [List.zipWith_cons_cons, List.map_cons, graftEntries, h.1, ih h.2]

/-- Items changed in place are a change in place of the sequence. -/
theorem graft_withItems {value : Value} {items news : List Value}
    (hitems : value.items? = some items) (hnews : graftItems items news = news) :
    value.graft (value.withItems news) = value.withItems news := by
  cases value with
  | sequence kind derived olds =>
      cases hitems
      cases hkind : kind.isMutable with
      | true => simp [withItems, graft, hkind]
      | false => exact (graft_sequence_eq_iff hkind _ _ _).2 ⟨_, rfl, hnews⟩
  | record head slots =>
      cases htuple : head.isTuple with
      | false => simp [withItems, htuple, graft_self]
      | true =>
          have hhead : head.isMutable = false := by simp [RecordHead.isMutable, htuple]
          rw [items?_of_isTuple htuple, Option.some.injEq] at hitems
          subst hitems
          simp only [withItems, htuple, if_true]
          exact (graft_record_eq_iff hhead _ _).2 ⟨_, rfl, graftSlots_zipWith hnews⟩
  | _ => simp [withItems, graft_self]

end RuleCheck.Value
