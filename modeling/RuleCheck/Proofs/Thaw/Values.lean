import RuleCheck.Proofs.Thaw.Categories
import RuleCheck.Value.Depth
import RuleCheck.Value.Display
import RuleCheck.Value.Zero
import RuleCheck.Visit.Compare
import RuleCheck.Visit.Record
import RuleCheck.Visit.Sequence

/-! # Thawed values

A value and the same value with some record types thawed and some tuples turned into lists.  Whatever a
walk asks of them, apart from leave to write, has the same answer.
-/

namespace RuleCheck

namespace Value

variable {p : String → Bool}

mutual

def thaw (p : String → Bool) : Value → Value
  | .member enumeration name content => .member enumeration name (thaw p content)
  | .sequence kind derived items => .sequence kind derived (thawItems p items)
  | .mapping kind derived entries => .mapping kind derived (thawEntries p entries)
  | .box content => .box (thaw p content)
  | .record head slots => .record (head.thaw p) (thawSlots p slots)
  | other => other

def thawItems (p : String → Bool) : List Value → List Value
  | [] => []
  | value :: items => thaw p value :: thawItems p items

def thawEntries (p : String → Bool) : List (Value × Value) → List (Value × Value)
  | [] => []
  | (key, value) :: entries => (thaw p key, thaw p value) :: thawEntries p entries

def thawSlots (p : String → Bool) : List (String × Value) → List (String × Value)
  | [] => []
  | (name, value) :: slots => (name, thaw p value) :: thawSlots p slots

end

mutual

theorem display_thaw : (value : Value) → (value.thaw p).display = value.display
  | .null | .scalar _ _ | .foreign _ | .range _ _ _ => by simp [thaw]
  | .member _ _ content => by simp [thaw, display, display_thaw content]
  | .sequence _ _ items => by simp [thaw, display, displayItems_thaw items]
  | .mapping _ _ entries => by simp [thaw, display, displayEntries_thaw entries]
  | .box content => by simp [thaw, display, display_thaw content]
  | .record _ slots => by simp [thaw, display, RecordHead.thaw, displaySlots_thaw slots]

theorem displayItems_thaw : (items : List Value) → displayItems (thawItems p items) = displayItems items
  | [] => by simp [thawItems]
  | value :: items => by simp [thawItems, displayItems, display_thaw value, displayItems_thaw items]

theorem displayEntries_thaw :
    (entries : List (Value × Value)) → displayEntries (thawEntries p entries) = displayEntries entries
  | [] => by simp [thawEntries]
  | (key, value) :: entries => by
      simp [thawEntries, displayEntries, display_thaw key, display_thaw value,
        displayEntries_thaw entries]

theorem displaySlots_thaw :
    (slots : List (String × Value)) → displaySlots (thawSlots p slots) = displaySlots slots
  | [] => by simp [thawSlots]
  | (_, value) :: slots => by
      simp [thawSlots, displaySlots, display_thaw value, displaySlots_thaw slots]

end

theorem keyText_thaw (key : Value) : (key.thaw p).keyText = key.keyText := by
  have hdisplay : (key.thaw p).display = key.display := display_thaw key
  cases key with
  | record head slots =>
      obtain ⟨name, kind, frozen⟩ := head
      have hslots : displaySlots (thawSlots p slots) = displaySlots slots := displaySlots_thaw slots
      cases kind with
      | model => simp [thaw, RecordHead.thaw, keyText, hslots]
      | data | namedTuple | plainNamedTuple => exact hdisplay
  | null | scalar _ _ | foreign _ | range _ _ _ | member _ _ _ => simp [thaw, keyText]
  | sequence kind derived items => exact hdisplay
  | mapping kind derived entries => exact hdisplay
  | box content => exact hdisplay

mutual

theorem depth_thaw : (value : Value) → (value.thaw p).depth = value.depth
  | .null | .scalar _ _ | .foreign _ | .range _ _ _ => by simp [thaw]
  | .member _ _ content => by simp [thaw, depth, depth_thaw content]
  | .sequence _ _ items => by simp [thaw, depth, itemsDepth_thaw items]
  | .mapping _ _ entries => by simp [thaw, depth, entriesDepth_thaw entries]
  | .box content => by simp [thaw, depth, depth_thaw content]
  | .record _ slots => by simp [thaw, depth, slotsDepth_thaw slots]

theorem itemsDepth_thaw : (items : List Value) → itemsDepth (thawItems p items) = itemsDepth items
  | [] => by simp [thawItems]
  | value :: items => by simp [thawItems, itemsDepth, depth_thaw value, itemsDepth_thaw items]

theorem entriesDepth_thaw :
    (entries : List (Value × Value)) → entriesDepth (thawEntries p entries) = entriesDepth entries
  | [] => by simp [thawEntries]
  | (key, value) :: entries => by
      simp [thawEntries, entriesDepth, depth_thaw key, depth_thaw value, entriesDepth_thaw entries]

theorem slotsDepth_thaw :
    (slots : List (String × Value)) → slotsDepth (thawSlots p slots) = slotsDepth slots
  | [] => by simp [thawSlots]
  | (_, value) :: slots => by
      simp [thawSlots, slotsDepth, depth_thaw value, slotsDepth_thaw slots]

end

end Value

mutual

/--
The second value is the first with record types thawed and some of its tuples turned into lists, keys of
mappings apart.  There are no sets and no read-only mappings.  A class derived from the tuples does not
count: a tuple that is rebuilt is a plain one.
-/
inductive Thaws (p : String → Bool) : Value → Value → Prop
  | null : Thaws p .null .null
  | scalar (origin : Origin) (content : Scalar) :
      Thaws p (.scalar origin content) (.scalar origin content)
  | foreign (content : Foreign) : Thaws p (.foreign content) (.foreign content)
  | member (enumeration name : String) {content content' : Value} (h : Thaws p content content') :
      Thaws p (.member enumeration name content) (.member enumeration name content')
  | sequence {kind : SequenceKind} (hkind : kind.isMutable = true) (derived : Option String)
      {items items' : List Value} (h : ThawsItems p items items') :
      Thaws p (.sequence kind derived items) (.sequence kind derived items')
  | tuple {kind : SequenceKind} (hkind : kind = .tuple ∨ kind = .list)
      (derived derived' : Option String) {items items' : List Value} (h : ThawsItems p items items') :
      Thaws p (.sequence .tuple derived items) (.sequence kind derived' items')
  | range (start stop step : Int) : Thaws p (.range start stop step) (.range start stop step)
  | dict (derived : Option String) {entries entries' : List (Value × Value)}
      (h : ThawsEntries p entries entries') :
      Thaws p (.mapping .dict derived entries) (.mapping .dict derived entries')
  | box {content content' : Value} (h : Thaws p content content') :
      Thaws p (.box content) (.box content')
  | record (head : RecordHead) {slots slots' : List (String × Value)}
      (h : ThawsSlots p slots slots') : Thaws p (.record head slots) (.record (head.thaw p) slots')

inductive ThawsItems (p : String → Bool) : List Value → List Value → Prop
  | nil : ThawsItems p [] []
  | cons {value value' : Value} {items items' : List Value} (h : Thaws p value value')
      (hrest : ThawsItems p items items') : ThawsItems p (value :: items) (value' :: items')

/-- `Thaws` for the values of two mappings, whose keys have record types thawed. -/
inductive ThawsEntries (p : String → Bool) : List (Value × Value) → List (Value × Value) → Prop
  | nil : ThawsEntries p [] []
  | cons (key : Value) {value value' : Value} {entries entries' : List (Value × Value)}
      (h : Thaws p value value') (hrest : ThawsEntries p entries entries') :
      ThawsEntries p ((key, value) :: entries) ((key.thaw p, value') :: entries')

inductive ThawsSlots (p : String → Bool) : List (String × Value) → List (String × Value) → Prop
  | nil : ThawsSlots p [] []
  | cons (name : String) {value value' : Value} {slots slots' : List (String × Value)}
      (h : Thaws p value value') (hrest : ThawsSlots p slots slots') :
      ThawsSlots p ((name, value) :: slots) ((name, value') :: slots')

end

variable {p : String → Bool} {value value' : Value}

/-! ## What a walk asks of the two values -/

namespace Thaws

theorem isNull_eq (h : Thaws p value value') : value'.isNull = value.isNull := by
  cases h <;> rfl

theorem category_eq (h : Thaws p value value') : value'.category = value.category.thaw p := by
  cases h with
  | null | member | range | box | record => rfl
  | scalar origin content => rcases origin with _ | _ | _ <;> cases content <;> rfl
  | foreign content => cases content <;> rfl
  | sequence hkind derived => rename_i kind _ _ _; cases kind <;> cases derived <;> rfl
  | tuple hkind derived derived' =>
      rcases hkind with rfl | rfl <;> cases derived <;> cases derived' <;> rfl
  | dict derived => cases derived <;> rfl

theorem fits_eq (h : Thaws p value value') (category : Category) :
    value'.fits category = value.fits category := by
  cases h with
  | null | foreign | member | range | box => cases category <;> rfl
  | scalar origin content => rfl
  | sequence hkind derived => rename_i kind _ _ _; cases category <;> cases kind <;> cases derived <;> rfl
  | tuple hkind derived derived' =>
      rcases hkind with rfl | rfl <;> cases category <;> cases derived <;> cases derived' <;> rfl
  | dict derived => cases category <;> cases derived <;> rfl
  | record head => cases category <;> rfl

end Thaws

theorem Value.mentions_category {P : RecordHead → Prop} (value : Value) :
    value.category.Mentions P := by
  have hnone : Arguments.none.Mentions P := by simp [Arguments.none, Arguments.Mentions]
  unfold category
  split
  · exact Resolved.mentions_ofCategory _
  · exact Class.mentions_classify _ hnone _

namespace Thaws

theorem resolve_eq {P : RecordHead → Prop} (hsep : Separates p P) (h : Thaws p value value')
    {declared : Annotation} (hdeclared : declared.Mentions P) :
    value'.resolve (declared.thaw p) = (value.resolve declared).thaw p ∧
      (value.resolve declared).Mentions P :=
  Value.resolveAs_thaw hsep h.category_eq value.mentions_category h.isNull_eq h.fits_eq false
    declared hdeclared

end Thaws

theorem ThawsItems.length_eq {items items' : List Value} (h : ThawsItems p items items') :
    items'.length = items.length := by
  induction items generalizing items' with
  | nil => cases h; rfl
  | cons value items ih =>
      cases h with
      | cons _ hrest => simp [ih hrest]

theorem ThawsEntries.length_eq {entries entries' : List (Value × Value)}
    (h : ThawsEntries p entries entries') : entries'.length = entries.length := by
  induction entries generalizing entries' with
  | nil => cases h; rfl
  | cons entry entries ih =>
      cases h with
      | cons _ _ hrest => simp [ih hrest]

theorem ThawsSlots.items {slots slots' : List (String × Value)} (h : ThawsSlots p slots slots') :
    ThawsItems p (slots.map Prod.snd) (slots'.map Prod.snd) := by
  induction slots generalizing slots' with
  | nil => cases h; exact .nil
  | cons slot slots ih =>
      cases h with
      | cons _ hvalue hrest => exact .cons hvalue (ih hrest)

theorem ThawsSlots.length_eq {slots slots' : List (String × Value)} (h : ThawsSlots p slots slots') :
    slots'.length = slots.length := by
  simpa using h.items.length_eq

mutual

theorem Thaws.depth_eq : {value value' : Value} → Thaws p value value' → value'.depth = value.depth
  | _, _, .null | _, _, .scalar _ _ | _, _, .foreign _ | _, _, .range _ _ _ => rfl
  | _, _, .member _ _ h => by simp [Value.depth, h.depth_eq]
  | _, _, .sequence _ _ h => by simp [Value.depth, h.depth_eq]
  | _, _, .tuple _ _ _ h => by simp [Value.depth, h.depth_eq]
  | _, _, .dict _ h => by simp [Value.depth, h.depth_eq]
  | _, _, .box h => by simp [Value.depth, h.depth_eq]
  | _, _, .record _ h => by simp [Value.depth, h.depth_eq]

theorem ThawsItems.depth_eq : {items items' : List Value} → ThawsItems p items items' →
    Value.itemsDepth items' = Value.itemsDepth items
  | _, _, .nil => rfl
  | _, _, .cons h hrest => by simp [Value.itemsDepth, h.depth_eq, hrest.depth_eq]

theorem ThawsEntries.depth_eq : {entries entries' : List (Value × Value)} →
    ThawsEntries p entries entries' → Value.entriesDepth entries' = Value.entriesDepth entries
  | _, _, .nil => rfl
  | _, _, .cons key h hrest => by
      simp [Value.entriesDepth, Value.depth_thaw key, h.depth_eq, hrest.depth_eq]

theorem ThawsSlots.depth_eq : {slots slots' : List (String × Value)} → ThawsSlots p slots slots' →
    Value.slotsDepth slots' = Value.slotsDepth slots
  | _, _, .nil => rfl
  | _, _, .cons _ h hrest => by simp [Value.slotsDepth, h.depth_eq, hrest.depth_eq]

end

/-! ## Zeros and lengths -/

namespace Thaws

theorem isZeroContent_eq (h : Thaws p value value') : value'.isZeroContent = value.isZeroContent := by
  cases h with
  | null | scalar | foreign | member | range | record => rfl
  | sequence hkind derived h | tuple hkind derived derived' h =>
      rename_i items items'
      have hlength := h.length_eq
      cases items <;> cases items' <;> simp_all [Value.isZeroContent]
  | dict derived h =>
      rename_i entries entries'
      have hlength := h.length_eq
      cases entries <;> cases entries' <;> simp_all [Value.isZeroContent]
  | box h => exact h.isNull_eq

theorem isOversized_eq (h : Thaws p value value') : value'.isOversized = value.isOversized := by
  cases h <;> rfl

end Thaws

mutual

/-- The values are as zero as each other, also where members of an enumeration stand for them. -/
theorem Thaws.isZero_eq : {value value' : Value} → Thaws p value value' →
    value'.isZero = value.isZero ∧
      ∀ enumeration name, (Value.member enumeration name value').isZero =
        (Value.member enumeration name value).isZero
  | _, _, .null | _, _, .scalar _ _ | _, _, .foreign _ | _, _, .range _ _ _ => ⟨rfl, fun _ _ => rfl⟩
  | _, _, .member enumeration name h => ⟨h.isZero_eq.2 enumeration name, fun _ _ => rfl⟩
  | _, _, .sequence hkind derived h =>
      have hzero := (Thaws.sequence hkind derived h).isZeroContent_eq
      ⟨hzero, fun _ _ => hzero⟩
  | _, _, .tuple hkind derived derived' h =>
      have hzero := (Thaws.tuple hkind derived derived' h).isZeroContent_eq
      ⟨hzero, fun _ _ => hzero⟩
  | _, _, .dict derived h =>
      have hzero := (Thaws.dict derived h).isZeroContent_eq
      ⟨hzero, fun _ _ => hzero⟩
  | _, _, .box h =>
      have hzero := (Thaws.box h).isZeroContent_eq
      ⟨hzero, fun _ _ => hzero⟩
  | _, _, .record _ h => ⟨h.areZero_eq, fun _ _ => h.areZero_eq⟩

theorem ThawsSlots.areZero_eq : {slots slots' : List (String × Value)} → ThawsSlots p slots slots' →
    Value.slotsAreZero slots' = Value.slotsAreZero slots
  | _, _, .nil => rfl
  | _, _, .cons _ h hrest => by simp [Value.slotsAreZero, h.isZero_eq.1, hrest.areZero_eq]

end

mutual

theorem Thaws.zeroFails_eq : {value value' : Value} → Thaws p value value' →
    value'.zeroFails = value.zeroFails ∧
      ∀ enumeration name, (Value.member enumeration name value').zeroFails =
        (Value.member enumeration name value).zeroFails
  | _, _, .null | _, _, .scalar _ _ | _, _, .foreign _ | _, _, .range _ _ _ | _, _, .sequence _ _ _
  | _, _, .tuple _ _ _ _ | _, _, .dict _ _ | _, _, .box _ => ⟨rfl, fun _ _ => rfl⟩
  | _, _, .member enumeration name h => ⟨h.zeroFails_eq.2 enumeration name, fun _ _ => rfl⟩
  | _, _, .record _ h => ⟨h.zeroFail_eq, fun _ _ => h.zeroFail_eq⟩

theorem ThawsSlots.zeroFail_eq : {slots slots' : List (String × Value)} →
    ThawsSlots p slots slots' → Value.slotsZeroFail slots' = Value.slotsZeroFail slots
  | _, _, .nil => rfl
  | _, _, .cons _ h hrest => by
      simp [Value.slotsZeroFail, h.zeroFails_eq.1, h.isZero_eq.1, hrest.zeroFail_eq]

end

namespace Thaws

/-- The two values have the same length, or lack one in the same words. -/
theorem lengthOrFault_eq (h : Thaws p value value') : value'.lengthOrFault = value.lengthOrFault := by
  unfold Value.lengthOrFault
  rw [h.isOversized_eq]
  cases h with
  | null | scalar | foreign | member | range | box => rfl
  | sequence hkind derived h | tuple hkind derived derived' h => simp [Value.length?, h.length_eq]
  | dict derived h => simp [Value.length?, h.length_eq]
  | record head h =>
      have htuple : (head.thaw p).isTuple = head.isTuple := rfl
      have hname : (Class.record (head.thaw p)).fullName = (Class.record head).fullName := rfl
      simp only [Value.length?, Value.classOf, h.length_eq, htuple, hname]

theorem checkLength_eq (h : Thaws p value value') (rules : RuleSet) (key : String) :
    rules.checkLength value' key = rules.checkLength value key := by
  unfold RuleSet.checkLength
  generalize rules.tokens = tokens
  induction tokens generalizing rules with
  | nil => rfl
  | cons token tokens ih =>
      simp only [RuleSet.checkLengthTokens, h.isNull_eq, h.lengthOrFault_eq]
      congr
      funext found
      cases found with
      | none => exact ih rules
      | some c => simp only [ih]

/-! ## Fields -/

/-- A value that can be changed in place can be changed when it is thawed. -/
theorem isMutable_of (h : Thaws p value value') (hmutable : value.isMutable = true) :
    value'.isMutable = true := by
  cases h with
  | null | scalar | foreign | member | range => cases hmutable
  | sequence hkind => exact hkind
  | tuple => cases hmutable
  | dict | box => rfl
  | record head =>
      have hfixed : (!head.isTuple && !head.frozen) = true := hmutable
      have hthawed : (!head.isTuple && !(head.frozen && !p head.name)) = true := by
        simp only [Bool.and_eq_true, Bool.not_eq_true'] at hfixed
        simp [hfixed.1, hfixed.2]
      exact hthawed

theorem box_or_record (h : Thaws p value value') (hrecord : value.classOf.isRecord = true) :
    (∃ content content', value = .box content ∧ value' = .box content' ∧ Thaws p content content') ∨
      ∃ head slots slots', value = .record head slots ∧ value' = .record (head.thaw p) slots' ∧
        ThawsSlots p slots slots' := by
  cases h with
  | null | member | range => cases hrecord
  | scalar origin content => rcases origin with _ | _ | _ <;> cases content <;> cases hrecord
  | foreign content => cases content <;> cases hrecord
  | sequence hkind derived => rename_i kind _ _ _; cases kind <;> cases derived <;> cases hrecord
  | tuple hkind derived => cases derived <;> cases hrecord
  | dict derived => cases derived <;> cases hrecord
  | box h => exact .inl ⟨_, _, rfl, rfl, h⟩
  | record head h => exact .inr ⟨head, _, _, rfl, rfl, h⟩

theorem classOf_eq (h : Thaws p value value') (hrecord : value.classOf.isRecord = true) :
    value'.classOf = value.classOf.thaw p := by
  rcases h.box_or_record hrecord with ⟨_, _, rfl, rfl, -⟩ | ⟨_, _, _, rfl, rfl, -⟩ <;> rfl

end Thaws

theorem ThawsSlots.lookup {slots slots' : List (String × Value)} (h : ThawsSlots p slots slots')
    (name : String) :
    (slots.lookup name = none ∧ slots'.lookup name = none) ∨
      ∃ content content', slots.lookup name = some content ∧ slots'.lookup name = some content' ∧
        Thaws p content content' := by
  induction slots generalizing slots' with
  | nil => cases h; exact .inl ⟨rfl, rfl⟩
  | cons slot slots ih =>
      cases h with
      | cons own hvalue hrest =>
          simp only [List.lookup_cons]
          cases name == own with
          | true => exact .inr ⟨_, _, rfl, rfl, hvalue⟩
          | false => exact ih hrest

theorem ThawsSlots.put {slots slots' : List (String × Value)} (h : ThawsSlots p slots slots')
    (name : String) {new new' : Value} (hnew : Thaws p new new') :
    ThawsSlots p (Value.putSlot name new slots) (Value.putSlot name new' slots') := by
  induction slots generalizing slots' with
  | nil => cases h; exact .nil
  | cons slot slots ih =>
      cases h with
      | cons own hvalue hrest =>
          simp only [Value.putSlot]
          cases own == name with
          | true => exact .cons own hnew hrest
          | false => exact .cons own hvalue (ih hrest)

namespace Thaws

theorem fieldContent? (h : Thaws p value value') (hrecord : value.classOf.isRecord = true)
    (name : String) :
    (value.fieldContent? name = none ∧ value'.fieldContent? name = none) ∨
      ∃ content content', value.fieldContent? name = some content ∧
        value'.fieldContent? name = some content' ∧ Thaws p content content' := by
  rcases h.box_or_record hrecord with
    ⟨content, content', rfl, rfl, hcontent⟩ | ⟨head, slots, slots', rfl, rfl, hslots⟩
  · simp only [Value.fieldContent?]
    by_cases hname : (name == Schema.boxField.name) = true
    · rw [if_pos hname, if_pos hname]
      exact .inr ⟨_, _, rfl, rfl, hcontent⟩
    · rw [if_neg hname, if_neg hname]
      exact .inl ⟨rfl, rfl⟩
  · exact hslots.lookup name

theorem withField (h : Thaws p value value') (name : String) {new new' : Value}
    (hnew : Thaws p new new') : Thaws p (value.withField name new) (value'.withField name new') := by
  cases h with
  | null => exact .null
  | scalar origin content => exact .scalar origin content
  | foreign content => exact .foreign content
  | member enumeration own h => exact .member enumeration own h
  | range start stop step => exact .range start stop step
  | sequence hkind derived h => exact .sequence hkind derived h
  | tuple hkind derived derived' h => exact .tuple hkind derived derived' h
  | dict derived h => exact .dict derived h
  | box h =>
      refine .box ?_
      split
      · exact hnew
      · exact h
  | record head h => exact .record head (h.put name hnew)

end Thaws

end RuleCheck
