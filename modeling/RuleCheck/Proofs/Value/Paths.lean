import RuleCheck.Proofs.Category.Stable
import RuleCheck.Proofs.Value.Fields
import RuleCheck.Proofs.Visit.Passing

/-! # Paths into values

A path is read from the left.  A segment is the name of a declared field of a record or a box, the index of an
item of a sequence in brackets, or the text of a key of a mapping in brackets.  The content of a box is also
reached without a segment.
-/

namespace RuleCheck

namespace Value

/-- A step from a value to one directly inside it, with the segment for it if there is one. -/
inductive Access (view? : Class → Option RecordView) : Value → List String → Value → Prop
  | field {value content : Value} {view : RecordView} {field : Field}
      (hview : view? value.classOf = some view) (hfield : field ∈ view.fields)
      (hcontent : value.fieldContent? field.name = some content) :
      Access view? value [field.name] content
  | item {value item : Value} {items : List Value} {index : Nat} (hlist : value.fits .list = true)
      (hitems : value.items? = some items) (hitem : items[index]? = some item) :
      Access view? value [Path.index index] item
  | entry {kind : MappingKind} {derived : Option String} {entries : List (Value × Value)}
      {key item : Value} (hentry : (key, item) ∈ entries) :
      Access view? (.mapping kind derived entries) [Path.key key.keyText] item
  | content (content : Value) : Access view? (.box content) [] content

/-- Steps from a value to one inside it, with the path that their segments make. -/
inductive Leads (view? : Class → Option RecordView) : Value → List String → Value → Prop
  | here (value : Value) : Leads view? value [] value
  | step {value inner target : Value} {segments path : List String}
      (haccess : Access view? value segments inner) (hrest : Leads view? inner path target) :
      Leads view? value (segments ++ path) target

/-- Whether a path leads from a value to anything. -/
def IsPath (view? : Class → Option RecordView) (value : Value) (path : List String) : Prop :=
  ∃ target, Leads view? value path target

def Covers (view? : Class → Option RecordView) (value other : Value) : Prop :=
  ∀ path, other.IsPath view? path → value.IsPath view? path

variable {view? : Class → Option RecordView}

theorem isPath_nil (value : Value) : value.IsPath view? [] :=
  ⟨value, .here value⟩

theorem IsPath.step {value inner : Value} {segments path : List String}
    (h : inner.IsPath view? path) (haccess : Access view? value segments inner) :
    value.IsPath view? (segments ++ path) := by
  obtain ⟨target, hleads⟩ := h
  exact ⟨target, .step haccess hleads⟩

namespace Covers

theorem refl (value : Value) : value.Covers view? value :=
  fun _ h => h

theorem trans {first second third : Value} (h : first.Covers view? second)
    (hnext : second.Covers view? third) : first.Covers view? third :=
  fun path hpath => h path (hnext path hpath)

theorem of_access {value other : Value}
    (h : ∀ segments inner, Access view? other segments inner →
      ∃ own, Access view? value segments own ∧ own.Covers view? inner) :
    value.Covers view? other := by
  rintro path ⟨target, hleads⟩
  cases hleads with
  | here => exact isPath_nil value
  | step haccess hrest =>
      obtain ⟨own, hown, hinner⟩ := h _ _ haccess
      exact (hinner _ ⟨target, hrest⟩).step hown

theorem ofScalar (value : Value) (content : Scalar) : value.Covers view? (.ofScalar content) := by
  refine of_access fun segments inner haccess => ?_
  cases haccess with
  | field _ _ hcontent => cases hcontent
  | item hlist _ _ => cases hlist

theorem box {content new : Value} (h : content.Covers view? new) :
    (Value.box content).Covers view? (.box new) := by
  refine of_access fun segments inner haccess => ?_
  cases haccess with
  | content => exact ⟨content, .content content, h⟩
  | item hlist _ _ => cases hlist
  | @field _ _ view field hview hfield hcontent =>
      obtain ⟨hname, rfl⟩ : field.name = Schema.boxField.name ∧ new = inner := by
        simpa [fieldContent?] using hcontent
      exact ⟨content, .field hview hfield (by simp [fieldContent?, hname]), h⟩

theorem of_items {value : Value} {items news : List Value} (hlist : value.fits .list = true)
    (hitems : value.items? = some items)
    (h : ∀ (index : Nat) (new : Value), news[index]? = some new →
      ∃ item : Value, items[index]? = some item ∧ item.Covers view? new)
    (kind : SequenceKind) (derived : Option String) :
    value.Covers view? (.sequence kind derived news) := by
  refine of_access fun segments inner haccess => ?_
  cases haccess with
  | field _ _ hcontent => cases hcontent
  | item _ hnews hitem =>
      cases hnews
      obtain ⟨item, hitem, hcovers⟩ := h _ _ hitem
      exact ⟨item, .item hlist hitems hitem, hcovers⟩

theorem of_entries {entries news : List (Value × Value)}
    (h : ∀ key new, (key, new) ∈ news → ∃ item : Value, (key, item) ∈ entries ∧ item.Covers view? new)
    (kind : MappingKind) (derived : Option String) :
    (Value.mapping kind derived entries).Covers view? (.mapping kind derived news) := by
  refine of_access fun segments inner haccess => ?_
  cases haccess with
  | field _ _ hcontent => cases hcontent
  | item hlist _ _ => cases hlist
  | entry hentry =>
      obtain ⟨item, hitem, hcovers⟩ := h _ _ hentry
      exact ⟨item, .entry hitem, hcovers⟩

end Covers

/-! ## Slots of records -/

inductive SlotsCover (view? : Class → Option RecordView) :
    List (String × Value) → List (String × Value) → Prop
  | nil : SlotsCover view? [] []
  | cons {name : String} {old new : Value} {slots news : List (String × Value)}
      (hvalue : old.Covers view? new) (hslots : SlotsCover view? slots news) :
      SlotsCover view? ((name, old) :: slots) ((name, new) :: news)

namespace SlotsCover

variable {slots news : List (String × Value)}

theorem refl (slots : List (String × Value)) : SlotsCover view? slots slots := by
  induction slots with
  | nil => exact .nil
  | cons slot slots ih => exact .cons (.refl slot.2) ih

theorem lookup (h : SlotsCover view? slots news) {name : String} {new : Value}
    (hnew : news.lookup name = some new) :
    ∃ old, slots.lookup name = some old ∧ old.Covers view? new := by
  induction h with
  | nil => cases hnew
  | @cons own old other slots news hvalue _ ih =>
      simp only [List.lookup_cons] at hnew ⊢
      split at hnew
      · cases hnew
        exact ⟨old, rfl, hvalue⟩
      · exact ih hnew

theorem getElem? (h : SlotsCover view? slots news) {index : Nat} {new : Value}
    (hnew : (news.map Prod.snd)[index]? = some new) :
    ∃ old, (slots.map Prod.snd)[index]? = some old ∧ old.Covers view? new := by
  induction h generalizing index with
  | nil => cases hnew
  | @cons name old other slots news hvalue _ ih =>
      cases index with
      | zero =>
          cases hnew
          exact ⟨old, rfl, hvalue⟩
      | succ index => exact ih hnew

theorem of_putSlot {name : String} {content new : Value} (hcontent : slots.lookup name = some content)
    (h : content.Covers view? new) : SlotsCover view? slots (putSlot name new slots) := by
  induction slots with
  | nil => cases hcontent
  | cons slot slots ih =>
      obtain ⟨own, old⟩ := slot
      by_cases hown : own = name
      · subst hown
        obtain rfl : old = content := by simpa using hcontent
        simp only [putSlot, beq_self_eq_true, if_true]
        exact .cons h (.refl slots)
      · have hname : (name == own) = false := by simpa using Ne.symm hown
        simp only [List.lookup_cons, hname] at hcontent
        simpa [putSlot, hown] using .cons (.refl old) (ih hcontent)

theorem of_each {replaced : Bool} {index : Nat} {items : List Value}
    (h : Visits.Each (fun _ _ old new => old.Covers view? new) replaced index (slots.map Prod.snd)
      items) :
    SlotsCover view? slots (List.zipWith (fun slot item => (slot.1, item)) slots items) := by
  induction slots generalizing replaced index items with
  | nil => exact .nil
  | cons slot slots ih =>
      cases h with
      | cons head tail => exact .cons head (ih tail)

end SlotsCover

namespace Covers

theorem record {head : RecordHead} {slots news : List (String × Value)}
    (h : SlotsCover view? slots news) :
    (Value.record head slots).Covers view? (.record head news) := by
  refine of_access fun segments inner haccess => ?_
  cases haccess with
  | field hview hfield hcontent =>
      obtain ⟨old, hold, hcovers⟩ := h.lookup hcontent
      exact ⟨old, .field hview hfield hold, hcovers⟩
  | item hlist hitems hitem =>
      rw [items?_of_isTuple hlist] at hitems
      cases hitems
      obtain ⟨old, hold, hcovers⟩ := h.getElem? hitem
      exact ⟨old, .item hlist (items?_of_isTuple hlist slots) hold, hcovers⟩

theorem withField {value content new : Value} {name : String}
    (hcontent : value.fieldContent? name = some content) (h : content.Covers view? new) :
    value.Covers view? (value.withField name new) := by
  cases value with
  | record head slots => exact record (.of_putSlot hcontent h)
  | box old =>
      obtain ⟨hname, rfl⟩ : name = Schema.boxField.name ∧ old = content := by
        simpa [fieldContent?] using hcontent
      simpa [Value.withField, hname] using box h
  | _ => simp [fieldContent?, field?] at hcontent

theorem withEntries {replaced : Bool} {index : Nat} {entries : List (Value × Value)}
    {news : List Value}
    (h : Visits.Each (fun _ _ old new => old.Covers view? new) replaced index
      (entries.map Prod.snd) news) (kind : MappingKind) (derived : Option String) :
    (Value.mapping kind derived entries).Covers view?
      ((Value.mapping kind derived entries).withEntries news) := by
  refine of_entries (fun key new hnew => ?_) kind derived
  obtain ⟨i, hi, hpair⟩ := List.getElem_of_mem hnew
  obtain ⟨entry, left, hentry, hleft, heq⟩ :=
    List.getElem?_zipWith_eq_some.1 (List.getElem?_eq_some_iff.2 ⟨hi, hpair⟩)
  cases heq
  obtain ⟨item, own, hitem, hcovers⟩ := h.get hleft
  simp only [List.getElem?_map, hentry, Option.map_some, Option.some.injEq] at hitem
  subst hitem
  exact ⟨entry.2, List.mem_of_getElem? hentry, hcovers⟩

/-- What becomes of a sequence leads nowhere that the sequence does not. -/
theorem rebuild {replaced written : Bool} {declared : Annotation} {value : Value}
    {items news : List Value} (hcategory : (value.resolve declared).category = .list)
    (hitems : value.items? = some items)
    (h : Visits.Each (fun _ _ old new => old.Covers view? new) written 0 items news) :
    value.Covers view? (value.rebuild replaced news) := by
  have hnull := isNull_of_items hitems
  have heach (index : Nat) (new : Value) (hnew : news[index]? = some new) :
      ∃ item : Value, items[index]? = some item ∧ item.Covers view? new := by
    obtain ⟨item, own, hitem, hcovers⟩ := h.get hnew
    exact ⟨item, hitem, hcovers⟩
  unfold Value.rebuild
  rcases list_of_resolve hnull hcategory with
    ⟨kind, derived, olds, rfl⟩ | ⟨start, stop, step, rfl⟩ | ⟨head, slots, rfl, htuple⟩
  · split
    · exact of_items rfl hitems heach .tuple none
    · exact of_items rfl hitems heach kind derived
  · simpa [isRebuilt, withItems] using refl _
  · have hlist : (Value.record head slots).fits .list = true := htuple
    split
    · exact of_items hlist hitems heach .tuple none
    · rw [items?_of_isTuple htuple] at hitems
      cases hitems
      simpa [withItems, htuple] using record (.of_each h)

end Covers

end Value

end RuleCheck
