import RuleCheck.Proofs.Thaw.Schemas
import RuleCheck.Proofs.Thaw.Visits
import RuleCheck.Proofs.Walk.Calls
import RuleCheck.Proofs.Walk.Views

/-! # Walks over thawed values

A walk over a value rebuilds what it cannot change, and a walk over the thawed value changes it in place.
Each visit that one walk calls for has its counterpart in the other, and the two match.
-/

namespace RuleCheck

variable {p : String → Bool} {P : RecordHead → Prop}

/-- What a walk knows of a record type, the types in the annotations of its fields thawed. -/
def RecordView.thaw (p : String → Bool) (view : RecordView) : RecordView :=
  { view with fields := view.fields.map (Field.thaw p) }

namespace Place

def thaw (p : String → Bool) (place : Place) (value' : Value) : Place :=
  { place with declared := place.declared.thaw p, value := value' }

/-- Whether a place can be written, or what it holds is a scalar. -/
def Open (place : Place) : Prop :=
  place.writable = true ∨ place.value.scalar?.isSome = true

end Place

namespace Walk

/-- A walk beside one that knows the thawed types, without hooks. -/
structure ThawsTo (p : String → Bool) (P : RecordHead → Prop) (walk thawed : Walk) : Prop where
  separates : Separates p P
  evaluator? : walk.evaluator? = Registry.standard.get?
  evaluator?_eq : thawed.evaluator? = walk.evaluator?
  tagKey_eq : thawed.tagKey = walk.tagKey
  tokenize_eq : thawed.tokenize = walk.tokenize
  view? : ∀ base : Class, thawed.view? (base.thaw p) = (walk.view? base).map (RecordView.thaw p)
  mentions : ∀ base view, walk.view? base = some view → ∀ field ∈ view.fields,
    field.declared.Mentions P
  hookless : ∀ base view, walk.view? base = some view →
    view.selfHook = none ∧ view.contextHook = none

/-- No named tuple that stands for a list is rebuilt, which would make a plain tuple of it. -/
def KeepsNamedTuples (walk : Walk) (levels : Nat) (place : Place) : Prop :=
  ∀ rest last, walk.Reaches levels place rest last → last.resolved.category = .list →
    (∃ head slots, last.value = .record head slots) → (walk.visitAt rest last).replaced = false

/-- The visits that the visit to a place calls for match those to the thawed values. -/
def MatchesBelow (p : String → Bool) (P : RecordHead → Prop) (walk thawed : Walk) (levels : Nat)
    (place : Place) : Prop :=
  ∀ next value', walk.Calls levels place next → next.declared.Mentions P → next.Open →
    Thaws p next.value value' →
    (walk.visitAt levels next).Matches p (thawed.visitAt levels (next.thaw p value'))

section

variable {walk thawed : Walk} {levels : Nat} {place : Place} {value' : Value}

theorem matches_optional (hvalue : Thaws p place.value value')
    (hcategory : place.resolved.category = .optional) (hmentions : place.resolved.Mentions P)
    (hopen : place.Open) (hbelow : walk.MatchesBelow p P thawed levels place) :
    (Visit.optional (walk.visit levels) place.writable place.resolved place.value
        place.rules).Matches p
      (Visit.optional (thawed.visit levels) place.writable (place.resolved.thaw p) value'
        place.rules) := by
  unfold Visit.optional
  rw [hvalue.isNull_eq]
  cases hnull : place.value.isNull with
  | true => exact Visit.matches_missing _
  | false =>
      simp only [Bool.false_eq_true, if_false]
      exact hbelow _ value' (.present hcategory hnull) hmentions.1 hopen hvalue

theorem matches_reference (hvalue : Thaws p place.value value')
    (hcategory : place.resolved.category = .reference) (hmentions : place.resolved.Mentions P)
    (hbelow : walk.MatchesBelow p P thawed levels place) :
    (Visit.reference (walk.visit levels) place.resolved place.value place.rules).Matches p
      (Visit.reference (thawed.visit levels) (place.resolved.thaw p) value' place.rules) := by
  by_cases hnull : place.value.isNull = true
  · rw [Value.eq_null_of_isNull hnull] at hvalue ⊢
    cases hvalue with
    | null => exact Visit.matches_halt _ _ _
  · obtain ⟨content, hbox⟩ := Value.box_of_resolve (by simpa using hnull) hcategory
    rw [hbox] at hvalue ⊢
    cases hvalue with
    | box hcontent =>
        rename_i content'
        have hsame := hcontent.isNull_eq
        cases hempty : content.isNull with
        | true =>
            cases hcontent with
            | null =>
                simp only [Visit.reference]
                split
                · exact Visit.matches_halt _ _ _
                · exact Visit.matches_pass (.box .null)
            | _ => cases hempty
        | false =>
            rw [hempty] at hsame
            have hinner := hbelow _ content' (.content hcategory hbox hempty) hmentions.1 (.inl rfl)
              hcontent
            rw [Visit.reference_present hempty, Visit.reference_present hsame]
            exact ⟨hinner.stop_eq, fun hpass => .box (hinner.thaws hpass), fun _ h => h⟩

theorem matches_sequence (hvalue : Thaws p place.value value')
    (hcategory : place.resolved.category = .list) (hmentions : place.resolved.Mentions P)
    (hopen : place.Open) (hbelow : walk.MatchesBelow p P thawed levels place)
    (hkept : (∃ head slots, place.value = .record head slots) →
      (Visit.sequence (walk.visit levels) place.writable place.resolved place.value
        place.rules).replaced = false) :
    (Visit.sequence (walk.visit levels) place.writable place.resolved place.value
        place.rules).Matches p
      (Visit.sequence (thawed.visit levels) place.writable (place.resolved.thaw p) value'
        place.rules) := by
  unfold Visit.sequence at hkept ⊢
  rw [hvalue.isNull_eq, hvalue.checkLength_eq, hvalue.isOversized_eq]
  cases hnull : place.value.isNull with
  | true => exact Visit.matches_missing _
  | false =>
      rw [hnull] at hkept
      simp only [Bool.false_eq_true, if_false] at hkept ⊢
      cases hremaining : place.rules.checkLength place.value Visit.sequenceKey with
      | error stop => exact Visit.matches_halt _ _ _
      | ok remaining =>
          rw [hremaining] at hkept
          simp only at hkept ⊢
          cases hoversized : place.value.isOversized with
          | true => exact Visit.matches_halt _ _ _
          | false =>
              obtain ⟨items, items', hitems, hitems', hthaws, hwritable, hscalar⟩ :=
                hvalue.items (Value.list_of_resolve hnull hcategory) hopen
              rw [hoversized, hitems] at hkept
              rw [hitems, hitems', hwritable]
              simp only [Bool.false_eq_true, if_false] at hkept ⊢
              refine Visit.matches_ofItems hvalue (Visits.matches_ofItems hthaws 0 ?_) hkept
              intro index item item' hitem hthaw hbefore
              simp only [Nat.zero_add] at hbefore ⊢
              rw [Resolved.item_thaw]
              exact hbelow _ item' (.item hcategory hnull hremaining hitems hitem hbefore)
                (hmentions.item index) (hscalar item (List.mem_of_getElem? hitem)) hthaw

theorem matches_mapping (hvalue : Thaws p place.value value')
    (hcategory : place.resolved.category = .map) (hmentions : place.resolved.Mentions P)
    (hbelow : walk.MatchesBelow p P thawed levels place) :
    (Visit.mapping (walk.visit levels) place.resolved place.value place.rules).Matches p
      (Visit.mapping (thawed.visit levels) (place.resolved.thaw p) value' place.rules) := by
  unfold Visit.mapping
  rw [hvalue.isNull_eq, hvalue.checkLength_eq]
  cases hnull : place.value.isNull with
  | true => exact Visit.matches_missing _
  | false =>
      simp only [Bool.false_eq_true, if_false]
      cases hremaining : place.rules.checkLength place.value Visit.mappingKey with
      | error stop => exact Visit.matches_halt _ _ _
      | ok remaining =>
          obtain ⟨kind, derived, entries, hheld⟩ := Value.mapping_of_resolve hnull hcategory
          simp only
          have hcalls (index : Nat) (key item : Value) (hentry : entries[index]? = some (key, item))
              (hbefore : ∀ (i : Nat) other, i < index → entries[i]? = some other →
                (walk.visit levels kind.isMutable place.resolved.element other.2 remaining).stop =
                  none) :
              walk.Calls levels place
                ⟨kind.isMutable, place.resolved.element, item, remaining⟩ :=
            .entry hcategory hremaining hheld hentry hbefore
          rw [hheld] at hvalue ⊢
          cases hvalue with
          | dict _ hentries =>
              rename_i entries'
              have hvisits : (Visits.ofEntries true (fun item =>
                    walk.visit levels true place.resolved.element item remaining) entries).Matches p
                  (Visits.ofEntries true (fun item =>
                    thawed.visit levels true (place.resolved.thaw p).element item remaining) entries') := by
                refine Visits.matches_ofEntries hentries true ?_
                intro index key item item' hentry hthaw hbefore
                exact hbelow _ item' (hcalls index key item hentry hbefore) hmentions.1 (.inl rfl) hthaw
              exact ⟨hvisits.stop_eq, fun hpass => .dict derived
                (ThawsItems.zipWithEntries hentries (hvisits.thaws hpass)), fun _ h => h⟩

theorem matches_presentRecord (hwalks : walk.ThawsTo p P thawed)
    (hvalue : Thaws p place.value value') (hcategory : place.resolved.category = .record)
    (hnull : place.value.isNull = false) (hrecord : place.value.classOf.isRecord = true)
    (hwritable : place.writable = true) (hbelow : walk.MatchesBelow p P thawed levels place)
    {view : RecordView} (hview : walk.view? place.value.classOf = some view) :
    (Visit.presentRecord (walk.visit levels) walk.tokenize walk.tagKey walk.context view
        place.writable place.value place.rules).Matches p
      (Visit.presentRecord (thawed.visit levels) thawed.tokenize thawed.tagKey thawed.context
        (view.thaw p) place.writable value' place.rules) := by
  have hhookless := hwalks.hookless _ _ hview
  have hsteps : (Visit.steps (walk.visit levels) walk.tagKey view.typeName true
        (RecordStep.all walk.tokenize view.fields place.rules) place.value).Matches p
      (Visit.steps (thawed.visit levels) walk.tagKey view.typeName true
        ((RecordStep.all walk.tokenize view.fields place.rules).map (RecordStep.thaw p)) value') := by
    refine Visit.matches_steps hvalue hrecord ?_
    intro before target rules rest content content' hplan hbefore hcontent hthaws
    rw [← hwritable] at hbefore hcontent
    have hcall := Calls.field hcategory hnull hview hplan hbefore hcontent
    have htarget : target ∈ view.fields := by
      have hmem : RecordStep.descend target rules ∈
          RecordStep.all walk.tokenize view.fields place.rules := by simp [hplan]
      exact (RecordStep.of_descend_mem_all hmem).1
    have hmatch := hbelow _ content' hcall (hwalks.mentions _ _ hview target htarget)
      (.inl (by simp [hwritable])) hthaws
    simp only [visitAt, Place.thaw, hwritable, Bool.or_true] at hmatch
    exact hmatch
  have hfields : (view.thaw p).fields = view.fields.map (Field.thaw p) := rfl
  have hhookless' : (view.thaw p).selfHook = none ∧ (view.thaw p).contextHook = none := hhookless
  unfold Visit.presentRecord
  rw [hwalks.tokenize_eq, hwalks.tagKey_eq, hfields, RecordStep.all_thaw, hwritable]
  refine hsteps.andThen fun hpass => ?_
  rw [hooks_of_hookless hhookless, hooks_of_hookless hhookless']
  exact Visit.matches_pass (hsteps.thaws hpass)

theorem matches_record (hwalks : walk.ThawsTo p P thawed) (hvalue : Thaws p place.value value')
    (hcategory : place.resolved.category = .record) (hopen : place.Open)
    (hbelow : walk.MatchesBelow p P thawed levels place) :
    (Visit.record (walk.visit levels) walk.tokenize walk.tagKey walk.context walk.view?
        place.writable place.value place.rules).Matches p
      (Visit.record (thawed.visit levels) thawed.tokenize thawed.tagKey thawed.context thawed.view?
        place.writable value' place.rules) := by
  unfold Visit.record
  rw [hvalue.isNull_eq, hvalue.zeroFails_eq.1, hvalue.isZero_eq.1]
  cases hnull : place.value.isNull with
  | true => exact ⟨rfl, fun _ => .null, fun _ h => h⟩
  | false =>
      have hshape := Value.record_of_resolve hnull hcategory
      have hrecord : place.value.classOf.isRecord = true := by
        rcases hshape with ⟨content, hheld⟩ | ⟨head, slots, hheld⟩ <;> rw [hheld] <;> rfl
      have hwritable : place.writable = true := by
        rcases hopen with hwritable | hscalar
        · exact hwritable
        · rcases hshape with ⟨content, hheld⟩ | ⟨head, slots, hheld⟩ <;> rw [hheld] at hscalar <;>
            cases hscalar
      simp only [Bool.false_eq_true, if_false]
      by_cases hfails : (place.rules.required && place.value.zeroFails) = true
      · rw [if_pos hfails, if_pos hfails]
        exact (Visit.matches_halt _ _ _).after _ _
      · rw [if_neg hfails, if_neg hfails]
        by_cases hzero : (place.rules.required && place.value.isZero) = true
        · rw [if_pos hzero, if_pos hzero]
          exact (Visit.matches_halt _ _ _).after _ _
        · rw [if_neg hzero, if_neg hzero, hvalue.classOf_eq hrecord, hwalks.view?]
          cases hview : walk.view? place.value.classOf with
          | none =>
              rw [Class.display_thaw]
              exact (Visit.matches_halt _ _ _).after _ _
          | some view =>
              exact (matches_presentRecord hwalks hvalue hcategory hnull hrecord hwritable hbelow
                hview).after _ _

/-! ## Scalars, and all levels together -/

theorem matches_scalar (hvalue : Thaws p place.value value') {kind : ScalarKind}
    (hcategory : place.resolved.category = kind.category) :
    (kind.visit place.writable place.value place.rules).Matches p
      (kind.visit place.writable value' place.rules) := by
  have hsame : value' = place.value ∧ Thaws p place.value place.value := by
    rcases Value.scalar_of_resolve hcategory with hheld | ⟨origin, content, hheld, -⟩
    · rw [hheld] at hvalue ⊢
      cases hvalue
      exact ⟨rfl, .null⟩
    · rw [hheld] at hvalue ⊢
      cases hvalue
      exact ⟨rfl, .scalar origin content⟩
  rw [hsame.1]
  refine ⟨rfl, ?_, fun _ h => h⟩
  intro hpass
  rcases ScalarKind.visit_written hpass with ⟨hkept, -⟩ | ⟨content, hwritten, -⟩
  · rw [hkept]
    exact hsame.2
  · rw [hwritten]
    exact .scalar _ _

end

/-- A walk over a thawed value matches that over the value, if no named tuple is rebuilt. -/
theorem matches_visit {walk thawed : Walk} (hwalks : walk.ThawsTo p P thawed) (levels : Nat)
    {place : Place} {value' : Value} (hmentions : place.declared.Mentions P) (hopen : place.Open)
    (hvalue : Thaws p place.value value') (hkept : walk.KeepsNamedTuples levels place) :
    (walk.visitAt levels place).Matches p (thawed.visitAt levels (place.thaw p value')) := by
  induction levels generalizing place value' with
  | zero => exact Visit.matches_halt _ _ _
  | succ levels ih =>
      have hbelow : walk.MatchesBelow p P thawed levels place := by
        intro next inner hcall hmentions hopen hthaws
        exact ih hmentions hopen hthaws fun rest last hreach => hkept rest last (.call hcall hreach)
      obtain ⟨hresolved, hinside⟩ := hvalue.resolve_eq hwalks.separates hmentions
      have hown := hkept (levels + 1) place (.here _ _)
      simp only [visitAt, Place.thaw, visit] at hown ⊢
      rw [hresolved, Resolved.category_thaw, hwalks.evaluator?_eq]
      cases hevaluator : walk.evaluator? (place.value.resolve place.declared).category with
      | none => exact (Visit.matches_pass hvalue).after _ _
      | some evaluator =>
          have hcategory : place.resolved.category = evaluator.category := by
            rw [hwalks.evaluator?] at hevaluator
            exact (Registry.category_of_standard hevaluator).symm
          rw [hevaluator] at hown
          cases evaluator with
          | optional => exact matches_optional hvalue hcategory hinside hopen hbelow
          | reference => exact matches_reference hvalue hcategory hinside hbelow
          | scalar kind => exact matches_scalar hvalue hcategory
          | record => exact matches_record hwalks hvalue hcategory hopen hbelow
          | sequence =>
              exact matches_sequence hvalue hcategory hinside hopen hbelow (hown hcategory)
          | mapping => exact matches_mapping hvalue hcategory hinside hbelow

end Walk

end RuleCheck
