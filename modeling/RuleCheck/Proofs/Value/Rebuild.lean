import RuleCheck.Proofs.Category.Stable
import RuleCheck.Proofs.Value.Fields
import RuleCheck.Proofs.Value.Graft
import RuleCheck.Proofs.Visit.Passing

/-! # Values that are put together again

A value with its own parts put back is the value.  A sequence that was rebuilt is again a sequence whose items
can be written as before, and rebuilding it once more is the same as doing so at once.
-/

namespace RuleCheck

namespace Value

theorem withItems_self {value : Value} {items : List Value} (h : value.items? = some items) :
    value.withItems items = value := by
  have hslots (slots : List (String × Value)) :
      List.zipWith (fun slot item => (slot.1, item)) slots (slots.map Prod.snd) = slots := by
    induction slots with
    | nil => rfl
    | cons slot slots ih => simp [ih]
  cases value with
  | sequence kind derived olds =>
      cases h
      rfl
  | record head slots =>
      by_cases htuple : head.isTuple = true
      · rw [items?_of_isTuple htuple, Option.some.injEq] at h
        subst h
        simp [withItems, htuple, hslots]
      · simp [withItems, htuple]
  | _ => rfl

theorem withEntries_self (kind : MappingKind) (derived : Option String)
    (entries : List (Value × Value)) :
    (mapping kind derived entries).withEntries (entries.map Prod.snd) =
      .mapping kind derived entries := by
  have hentries : List.zipWith (fun entry new => (entry.1, new)) entries (entries.map Prod.snd) =
      entries := by
    induction entries with
    | nil => rfl
    | cons entry entries ih => simp [ih]
  simp [withEntries, hentries]

theorem withField_self {value content : Value} {name : String}
    (h : value.fieldContent? name = some content) : value.withField name content = value := by
  cases value with
  | record head slots =>
      have hlookup : slots.lookup name = some content := h
      have hslots : putSlot name content slots = slots := by
        clear h
        induction slots with
        | nil => rfl
        | cons slot slots ih =>
            obtain ⟨own, old⟩ := slot
            by_cases hown : own = name
            · subst hown
              simp_all [putSlot]
            · have hname : (name == own) = false := by simpa using Ne.symm hown
              simp only [List.lookup_cons, hname] at hlookup
              simp [putSlot, hown, ih hlookup]
      simp [withField, hslots]
  | box old =>
      simp only [fieldContent?] at h
      split at h
      · cases h
        simp_all [withField]
      · cases h
  | _ => simp [fieldContent?, field?] at h

/-- What is left of a sequence is no longer than can be told if it was so, and its items can be written if
they could be. -/
theorem rebuild_like (value : Value) (replaced writable : Bool) (items : List Value) :
    (value.rebuild replaced items).isOversized = value.isOversized ∧
      (value.rebuild replaced items).itemsWritable writable = value.itemsWritable writable := by
  unfold rebuild
  split
  · rename_i h
    obtain ⟨-, hrebuilt⟩ := Bool.and_eq_true_iff.1 h
    cases value with
    | sequence kind derived olds =>
        cases kind <;> simp_all [isRebuilt, itemsWritable, isOversized]
    | record head slots => simp_all [isRebuilt, itemsWritable, isOversized]
    | _ => simp [isRebuilt] at hrebuilt
  · cases value with
    | record head slots =>
        by_cases htuple : head.isTuple = true <;>
          simp [withItems, htuple, itemsWritable, isOversized]
    | sequence kind derived olds => cases kind <;> exact ⟨rfl, rfl⟩
    | _ => exact ⟨rfl, rfl⟩

theorem isRebuilt_rebuild (value : Value) (replaced : Bool) (items : List Value) :
    (value.rebuild replaced items).isRebuilt = value.isRebuilt := by
  unfold rebuild
  split
  · rename_i h
    rw [(Bool.and_eq_true_iff.1 h).2]
    rfl
  · cases value with
    | record head slots => by_cases htuple : head.isTuple = true <;> simp [withItems, htuple, isRebuilt]
    | sequence kind derived olds => cases kind <;> rfl
    | _ => rfl

theorem withItems_withItems (value : Value) {items news : List Value}
    (hlength : news.length = items.length) :
    (value.withItems items).withItems news = value.withItems news := by
  cases value with
  | record head slots =>
      by_cases htuple : head.isTuple = true
      · have hslots : List.zipWith (fun slot item => (slot.1, item))
            (List.zipWith (fun (slot : String × Value) item => (slot.1, item)) slots items) news =
            List.zipWith (fun slot item => (slot.1, item)) slots news := by
          induction slots generalizing items news with
          | nil => simp
          | cons slot slots ih =>
              cases items <;> cases news <;> first | cases hlength; done | simp_all
        simp [withItems, htuple, hslots]
      · simp [withItems, htuple]
  | _ => rfl

theorem rebuild_rebuild (value : Value) (first second : Bool) {items news : List Value}
    (hlength : news.length = items.length) :
    (value.rebuild first items).rebuild second news = value.rebuild (first || second) news := by
  have hagain := isRebuilt_rebuild value first items
  unfold rebuild at hagain ⊢
  cases hrebuilt : value.isRebuilt with
  | false =>
      simp only [hrebuilt, Bool.and_false, Bool.false_eq_true, if_false] at hagain ⊢
      simp [hagain, withItems_withItems value hlength]
  | true =>
      cases first with
      | true => simp [withItems, isRebuilt]
      | false =>
          simp only [hrebuilt, Bool.and_true, Bool.false_eq_true, if_false] at hagain ⊢
          rw [hagain, withItems_withItems value hlength]
          simp

/-- What is left of a sequence has the new items, and as many as before. -/
theorem items?_rebuild {value : Value} {declared : Annotation} {items news : List Value}
    (hnull : value.isNull = false) (hcategory : (value.resolve declared).category = .list)
    (hitems : value.items? = some items) (hlength : news.length = items.length)
    (hrange : ∀ start stop step, value = .range start stop step → news = items)
    (replaced : Bool) :
    (value.rebuild replaced news).items? = some news ∧
      (value.rebuild replaced news).length? = value.length? ∧
      (value.rebuild replaced news).isNull = false := by
  rcases list_of_resolve hnull hcategory with
    ⟨kind, derived, olds, rfl⟩ | ⟨start, stop, step, rfl⟩ | ⟨head, slots, rfl, htuple⟩
  · cases hitems
    unfold rebuild
    split
    · exact ⟨rfl, congrArg some hlength, rfl⟩
    · exact ⟨rfl, congrArg some hlength, rfl⟩
  · cases hrange start stop step rfl
    simp only [rebuild, isRebuilt, Bool.and_false, Bool.false_eq_true, if_false]
    exact ⟨hitems, rfl, rfl⟩
  · rw [items?_of_isTuple htuple, Option.some.injEq] at hitems
    have hsize : news.length = slots.length := by simpa [← hitems] using hlength
    have hold : (record head slots).length? = some slots.length := by simp [length?, htuple]
    rw [hold]
    cases replaced with
    | true =>
        simp only [rebuild, isRebuilt, htuple, Bool.and_self, if_true]
        exact ⟨rfl, congrArg some hsize, rfl⟩
    | false =>
        have hsnd := map_snd_zipWith hsize
        have hzipped : (List.zipWith (fun (slot : String × Value) item => (slot.1, item)) slots
            news).length = slots.length := by
          rw [List.length_zipWith, hsize, Nat.min_self]
        simp only [rebuild, Bool.false_and, Bool.false_eq_true, if_false, withItems, htuple, if_true]
        refine ⟨?_, ?_, rfl⟩
        · rw [items?_of_isTuple htuple, hsnd]
        · simp [length?, htuple, hzipped]

/-- What is gone through in a sequence stands inside of it, or is the numbers of a range. -/
theorem items_of_resolve {value : Value} {declared : Annotation} {items : List Value}
    (hnull : value.isNull = false) (hcategory : (value.resolve declared).category = .list)
    (hitems : value.items? = some items) :
    items = value.children ∨
      (∃ start stop step, value = .range start stop step) ∧ ∀ item ∈ items, ∃ n, item = .ofInt n := by
  rcases list_of_resolve hnull hcategory with
    ⟨kind, derived, own, rfl⟩ | ⟨start, stop, step, rfl⟩ | ⟨head, slots, rfl, htuple⟩
  · cases hitems
    exact .inl rfl
  · cases hitems
    refine .inr ⟨⟨start, stop, step, rfl⟩, fun item hitem => ?_⟩
    obtain ⟨i, -, rfl⟩ := List.mem_map.1 hitem
    exact ⟨_, rfl⟩
  · rw [items?_of_isTuple htuple] at hitems
    cases hitems
    exact .inl rfl

/-- A tuple with named places that was rebuilt has the new items inside. -/
theorem children_rebuild_record {head : RecordHead} (htuple : head.isTuple = true)
    {slots : List (String × Value)} {news : List Value} (hlength : news.length = slots.length)
    (replaced : Bool) : ((record head slots).rebuild replaced news).children = news := by
  unfold rebuild
  split
  · rfl
  · simp only [withItems, htuple, if_true, children]
    exact map_snd_zipWith hlength

theorem length_of_list {value : Value} {declared : Annotation} (hnull : value.isNull = false)
    (hcategory : (value.resolve declared).category = .list) : ∃ n, value.length? = some n := by
  rcases list_of_resolve hnull hcategory with
    ⟨kind, derived, items, rfl⟩ | ⟨start, stop, step, rfl⟩ | ⟨head, slots, rfl, htuple⟩
  · exact ⟨_, rfl⟩
  · exact ⟨_, rfl⟩
  · exact ⟨slots.length, by simp [length?, htuple]⟩

theorem exists_items_of_list {value : Value} {declared : Annotation} (hnull : value.isNull = false)
    (hcategory : (value.resolve declared).category = .list) : ∃ items, value.items? = some items := by
  rcases list_of_resolve hnull hcategory with
    ⟨kind, derived, items, rfl⟩ | ⟨start, stop, step, rfl⟩ | ⟨head, slots, rfl, htuple⟩
  · exact ⟨_, rfl⟩
  · exact ⟨_, rfl⟩
  · exact ⟨_, items?_of_isTuple htuple slots⟩

/-- A sequence that has too many items to be counted cannot be told to be zero either. -/
theorem zeroFails_of_isOversized {value : Value} {declared : Annotation} (hnull : value.isNull = false)
    (hcategory : (value.resolve declared).category = .list) (hoversized : value.isOversized = true) :
    value.zeroFails = true := by
  rcases list_of_resolve hnull hcategory with
    ⟨kind, derived, items, rfl⟩ | ⟨start, stop, step, rfl⟩ | ⟨head, slots, rfl, htuple⟩
  · cases hoversized
  · exact hoversized
  · cases hoversized

/-! ## What is left of the old object -/

theorem graftItems_eq_zipWith {olds news : List Value} (hlength : news.length = olds.length) :
    graftItems olds news = List.zipWith graft olds news := by
  induction olds generalizing news with
  | nil => simp [graftItems]
  | cons old olds ih =>
      cases news with
      | nil => simp at hlength
      | cons new news => simp [graftItems, ih (Nat.succ.inj hlength)]

theorem graftEntries_eq_zipWith {olds : List (Value × Value)} {news : List Value}
    (hlength : news.length = olds.length) :
    graftEntries olds news = List.zipWith (fun old new => (old.1, old.2.graft new)) olds news := by
  induction olds generalizing news with
  | nil => simp [graftEntries]
  | cons old olds ih =>
      cases news with
      | nil => simp at hlength
      | cons new news =>
          obtain ⟨key, value⟩ := old
          simp [graftEntries, ih (Nat.succ.inj hlength)]

theorem graftSlots_eq_zipWith {olds : List (String × Value)} {news : List Value}
    (hlength : news.length = olds.length) :
    graftSlots olds news = List.zipWith (fun old new => (old.1, old.2.graft new)) olds news := by
  induction olds generalizing news with
  | nil => simp [graftSlots]
  | cons old olds ih =>
      cases news with
      | nil => simp at hlength
      | cons new news =>
          obtain ⟨name, value⟩ := old
          simp [graftSlots, ih (Nat.succ.inj hlength)]

/-- What is left of a sequence that cannot be changed itself: what is left of its items. -/
theorem graft_rebuild_fixed {value : Value} {declared : Annotation} (hnull : value.isNull = false)
    (hcategory : (value.resolve declared).category = .list) (hfixed : value.isMutable = false)
    {items news : List Value} (hitems : value.items? = some items)
    (hlength : news.length = items.length) (replaced : Bool) :
    value.graft (value.rebuild replaced news) = value.withItems (graftItems items news) := by
  rcases list_of_resolve hnull hcategory with
    ⟨kind, derived, olds, rfl⟩ | ⟨start, stop, step, rfl⟩ | ⟨head, slots, rfl, htuple⟩
  · cases hitems
    have hkind : kind.isMutable = false := hfixed
    have hchildren : ((Value.sequence kind derived items).rebuild replaced news).children = news := by
      unfold rebuild
      split <;> rfl
    simp [graft, hkind, hchildren, withItems]
  · simp [graft, withItems]
  · have hhead : head.isMutable = false := hfixed
    rw [items?_of_isTuple htuple, Option.some.injEq] at hitems
    subst hitems
    rw [List.length_map] at hlength
    have hchildren := children_rebuild_record htuple hlength replaced
    have hslots : List.zipWith (fun (slot : String × Value) item => (slot.1, item)) slots
        (List.zipWith graft (slots.map Prod.snd) news) =
        List.zipWith (fun old new => (old.1, old.2.graft new)) slots news := by
      clear hchildren hnull hcategory hfixed
      induction slots generalizing news with
      | nil => rfl
      | cons slot slots ih =>
          cases news with
          | nil => simp at hlength
          | cons new news => simp [ih (Nat.succ.inj hlength)]
    rw [graftItems_eq_zipWith (by simpa using hlength)]
    simp only [graft, hhead, Bool.false_eq_true, if_false, hchildren, withItems, htuple, if_true,
      graftSlots_eq_zipWith hlength, hslots]

end Value

end RuleCheck
