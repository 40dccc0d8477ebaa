import RuleCheck.Proofs.Shape.Shaped
import RuleCheck.Proofs.Visit.Escaping
import RuleCheck.Proofs.Walk.Views
import Mathlib.Data.List.Nodup

/-! # What visits make of values

Every visit leaves a value that is `Shaped` by the one it was made to, wherever it stopped: what was not
reached is as before, and what was visited several times was changed step by step.
-/

namespace RuleCheck

variable {view? : Class → Option RecordView}

/-- A visit that wrote its place only if it may, and left a value that a walk can make of the visited one. -/
structure Visit.Shapes (view? : Class → Option RecordView) (writable : Bool) (declared : Annotation)
    (value : Value) (visit : Visit) : Prop where
  writable_of_replaced : visit.replaced = true → writable = true
  shaped : Shaped view? visit.replaced declared value visit.value

namespace Visit

variable {writable : Bool} {declared : Annotation} {value : Value}

theorem shapes_of_unchanged {visit : Visit} (hvalue : visit.value = value)
    (hreplaced : visit.replaced = false) : visit.Shapes view? writable declared value := by
  refine ⟨by simp [hreplaced], ?_⟩
  rw [hvalue, hreplaced]
  exact .same declared value

theorem Shapes.after {visit : Visit} (h : visit.Shapes view? writable declared value)
    (events : List Event) : (visit.after events).Shapes view? writable declared value :=
  ⟨h.writable_of_replaced, h.shaped⟩

theorem Shapes.andThen {visit : Visit} {next : Value → Visit}
    (h : visit.Shapes view? writable declared value)
    (hnext : visit.stop = none → (next visit.value).Shapes view? writable declared visit.value) :
    (visit.andThen next).Shapes view? writable declared value := by
  unfold Visit.andThen
  cases hstop : visit.stop with
  | some stop => exact h
  | none =>
      have hsecond := hnext hstop
      refine ⟨fun hreplaced => ?_, h.shaped.trans hsecond.shaped⟩
      rcases Bool.or_eq_true_iff.1 hreplaced with hfirst | hlast
      · exact h.writable_of_replaced hfirst
      · exact hsecond.writable_of_replaced hlast

theorem shapes_missing (hnull : value.isNull = true) (stop : Option Stop) :
    (missing stop).Shapes view? writable declared value := by
  cases value <;> cases hnull
  exact shapes_of_unchanged rfl rfl

end Visit

/-! ## Scalars -/

namespace ScalarKind

variable {kind : ScalarKind} {rules : RuleSet} {held : Value} {settled : Settled}
  {folded default : Option Value}

/-- What is to be changed is missing, the zero of its kind, or a text. -/
theorem Settling.givesWay (h : kind.Settling rules held settled folded default)
    (hchanged : settled.changed = true) : kind.GivesWay held := by
  cases hnull : held.isNull with
  | true => cases held <;> first | exact .inl rfl | cases hnull
  | false =>
      have hfolding := folded?_eq_ok h.folding
      have hdefaulting := default?_eq_ok h.defaulting
      rw [h.changed_of_present hnull] at hchanged
      rw [start_of_present kind hnull] at hfolding hdefaulting
      rcases hfolding with ⟨rfl, -⟩ | ⟨origin, s, hkind, hheld, -⟩
      · cases default with
        | none => simp at hchanged
        | some new =>
            obtain ⟨literal, content, -, hzero, -⟩ := hdefaulting new rfl
            exact .inr (.inl hzero)
      · exact .inr (.inr ⟨hkind, origin, s, hheld⟩)

theorem shapes_visit {declared : Annotation}
    (hcategory : (held.resolve declared).category = kind.category) (writable : Bool)
    (rules : RuleSet) : (kind.visit writable held rules).Shapes view? writable declared held := by
  unfold visit
  cases hsettle : kind.settle rules held with
  | error stop => exact Visit.shapes_of_unchanged rfl rfl
  | ok settled =>
      cases hchanged : settled.changed with
      | false =>
          simp only [hchanged, Bool.false_eq_true, if_false]
          exact Visit.shapes_of_unchanged rfl rfl
      | true =>
          cases writable with
          | false =>
              simp only [hchanged, Bool.false_eq_true, if_true, if_false]
              exact Visit.shapes_of_unchanged rfl rfl
          | true =>
              obtain ⟨folded, default, h⟩ := settle_eq_ok hsettle
              obtain ⟨content, hcontent, hbase, -⟩ := h.written hchanged
              simp only [hchanged, if_true]
              refine ⟨fun _ => rfl, ?_⟩
              simp only [hcontent]
              exact .scalar hcategory hbase (h.givesWay hchanged)

end ScalarKind

/-! ## Parts -/

namespace Visits

theorem each_refl {R : Bool → Nat → Value → Value → Prop} (hrefl : ∀ index item, R false index item item)
    (index : Nat) (items : List Value) : Each R false index items items := by
  induction items generalizing index with
  | nil => exact .nil index
  | cons item items ih => exact .cons (hrefl index item) (ih (index + 1))

theorem each_ofItems {R : Bool → Nat → Value → Value → Prop} {visit : Nat → Value → Visit}
    (hrefl : ∀ index item, R false index item item)
    (hvisit : ∀ index item, R (visit index item).replaced index item (visit index item).value)
    (index : Nat) (items : List Value) :
    Each R (ofItems visit index items).replaced index items (ofItems visit index items).values := by
  induction items generalizing index with
  | nil => exact .nil index
  | cons item items ih =>
      unfold ofItems
      cases hstop : (visit index item).stop with
      | none =>
          simp only [hstop, cons]
          exact .cons (hvisit index item) (ih (index + 1))
      | some stop =>
          simp only [hstop, halted]
          have heach := Each.cons (hvisit index item) (each_refl hrefl (index + 1) items)
          rw [Bool.or_false] at heach
          exact heach

/-- The same for entries: an entry that is not assigned keeps what is left of its old object. -/
theorem each_ofEntries {R : Bool → Nat → Value → Value → Prop} (assigned : Bool)
    {visit : Value → Visit} (hrefl : ∀ index item, R false index item item)
    (hvisit : ∀ index item, R (visit item).replaced index item (visit item).value)
    (hgraft : ∀ index item, R false index item (item.graft (visit item).value)) (index : Nat)
    (entries : List (Value × Value)) :
    ∃ replaced, Each R replaced index (entries.map Prod.snd)
      (ofEntries assigned visit entries).values := by
  induction entries generalizing index with
  | nil => exact ⟨false, .nil index⟩
  | cons entry entries ih =>
      obtain ⟨key, item⟩ := entry
      have hrest := each_refl hrefl (index + 1) (entries.map Prod.snd)
      unfold ofEntries
      cases hstop : (visit item).stop with
      | none =>
          obtain ⟨replaced, heach⟩ := ih (index + 1)
          simp only [hstop, cons]
          exact ⟨_, .cons (hvisit index item) heach⟩
      | some stop =>
          simp only [hstop, halted]
          cases assigned with
          | true => exact ⟨_, .cons (hgraft index item) hrest⟩
          | false => exact ⟨_, .cons (hvisit index item) hrest⟩

/-- Which places were written, part by part. -/
theorem Each.places {R : Bool → Nat → Value → Value → Prop} {replaced : Bool} {index : Nat}
    {values news : List Value} (h : Each R replaced index values news) :
    ∃ own : Nat → Bool, replaced = anyWritten own values.length ∧
      ∀ (i : Nat) (old new : Value), values[i]? = some old → news[i]? = some new →
        R (own i) (index + i) old new := by
  induction h with
  | nil => exact ⟨fun _ => false, rfl, by simp⟩
  | @cons replaced later index value new values news head _ ih =>
      obtain ⟨own, rfl, hown⟩ := ih
      refine ⟨fun i => if i = 0 then replaced else own (i - 1), ?_, ?_⟩
      · rw [Bool.eq_iff_iff, Bool.or_eq_true, anyWritten_eq_true_iff, anyWritten_eq_true_iff]
        constructor
        · rintro (h | ⟨i, hi, h⟩)
          · exact ⟨0, by simp, by simpa using h⟩
          · exact ⟨i + 1, by simpa using hi, by simpa using h⟩
        · rintro ⟨i, hi, h⟩
          cases i with
          | zero => exact .inl (by simpa using h)
          | succ i => exact .inr ⟨i, by simpa using hi, by simpa using h⟩
      · intro i old new' hold hnew
        cases i with
        | zero =>
            cases hold
            cases hnew
            simpa using head
        | succ i =>
            have hrest := hown i old new' hold hnew
            rw [Nat.add_right_comm] at hrest
            simpa [Nat.add_assoc] using hrest

end Visits

namespace Walk

section

variable {descend : Bool → Annotation → Value → RuleSet → Visit} {declared : Annotation}
  {value : Value} {writable : Bool} {rules : RuleSet}

theorem shapes_optional (hdescend : ∀ writable declared value rules,
      (descend writable declared value rules).Shapes view? writable declared value)
    (hcategory : (value.resolve declared).category = .optional) :
    (Visit.optional descend writable (value.resolve declared) value rules).Shapes view? writable
      declared value := by
  unfold Visit.optional
  cases hnull : value.isNull with
  | true => exact Visit.shapes_missing hnull _
  | false =>
      have hinner := hdescend writable (value.resolve declared).element value rules
      exact ⟨hinner.writable_of_replaced, .present hcategory hnull hinner.shaped⟩

theorem shapes_reference (hdescend : ∀ writable declared value rules,
      (descend writable declared value rules).Shapes view? writable declared value)
    (hcategory : (value.resolve declared).category = .reference) :
    (Visit.reference descend (value.resolve declared) value rules).Shapes view? writable
      declared value := by
  unfold Visit.reference
  split
  · split <;> exact Visit.shapes_of_unchanged rfl rfl
  · rename_i content _
    have hinner := hdescend true ((Value.box content).resolve declared).element content rules
    exact ⟨by simp, .content hcategory hinner.shaped⟩
  · exact Visit.shapes_of_unchanged rfl rfl

/-- The items of a sequence are left as a walk can make of them, and only those are written that may. -/
theorem shaped_items (hdescend : ∀ writable declared value rules,
      (descend writable declared value rules).Shapes view? writable declared value)
    (remaining : RuleSet) (items : List Value) :
    let visits := Visits.ofItems (fun index item => descend (value.itemsWritable writable)
      ((value.resolve declared).item index) item remaining) 0 items
    visits.values.length = items.length ∧ ∃ own : Nat → Bool,
      visits.replaced = anyWritten own items.length ∧
      (anyWritten own items.length = true → value.itemsWritable writable = true) ∧
      ∀ (i : Nat) (old new : Value), items[i]? = some old → visits.values[i]? = some new →
        Shaped view? (own i) ((value.resolve declared).item i) old new := by
  intro visits
  have heach := Visits.each_ofItems
    (R := fun own index old new => (own = true → value.itemsWritable writable = true) ∧
      Shaped view? own ((value.resolve declared).item index) old new)
    (fun _ _ => ⟨by simp, .same _ _⟩)
    (fun index item =>
      have hinner := hdescend (value.itemsWritable writable)
        ((value.resolve declared).item index) item remaining
      ⟨hinner.writable_of_replaced, hinner.shaped⟩) 0 items
  have hwritable := writable_of_each (S := fun _ _ _ => True)
    (heach.mono fun _ _ _ _ _ h => ⟨h.1, trivial⟩)
  obtain ⟨own, hown, hshaped⟩ := heach.places
  refine ⟨heach.length_eq, own, hown, fun hany => hwritable (hown.trans hany), ?_⟩
  intro i old new hold hnew
  have hpart := (hshaped i old new hold hnew).2
  rwa [Nat.zero_add] at hpart

theorem shapes_sequence (hdescend : ∀ writable declared value rules,
      (descend writable declared value rules).Shapes view? writable declared value)
    (hcategory : (value.resolve declared).category = .list) :
    (Visit.sequence descend writable (value.resolve declared) value rules).Shapes view? writable
      declared value := by
  unfold Visit.sequence
  cases hnull : value.isNull with
  | true => exact Visit.shapes_missing hnull _
  | false =>
      simp only [Bool.false_eq_true, if_false]
      split
      · exact Visit.shapes_of_unchanged rfl rfl
      · rename_i remaining _
        split
        · exact Visit.shapes_of_unchanged rfl rfl
        · split
          · exact Visit.shapes_of_unchanged rfl rfl
          · rename_i items hitems
            obtain ⟨hlength, own, hown, hwritable, hshaped⟩ :=
              @shaped_items view? descend declared value writable hdescend remaining items
            constructor
            · rw [Visit.ofItems_replaced]
              intro hreplaced
              obtain ⟨hwritten, hrebuilt⟩ := Bool.and_eq_true_iff.1 hreplaced
              exact writable_of_isRebuilt (hwritable (hown.symm.trans hwritten)) hrebuilt
            · rw [Visit.ofItems_replaced, Visit.ofItems_value, hown]
              exact .items hcategory hnull hitems hlength
                (fun hany => itemsWritable_mono (hwritable hany)) hshaped

theorem shapes_mapping (hdescend : ∀ writable declared value rules,
      (descend writable declared value rules).Shapes view? writable declared value)
    (hcategory : (value.resolve declared).category = .map) :
    (Visit.mapping descend (value.resolve declared) value rules).Shapes view? writable
      declared value := by
  unfold Visit.mapping
  cases hnull : value.isNull with
  | true => exact Visit.shapes_missing hnull _
  | false =>
      simp only [Bool.false_eq_true, if_false]
      split
      · exact Visit.shapes_of_unchanged rfl rfl
      · rename_i remaining _
        cases value with
        | mapping kind derived entries =>
            simp only
            have hinner := fun item => hdescend kind.isMutable
              ((Value.mapping kind derived entries).resolve declared).element item remaining
            generalize descend kind.isMutable
              ((Value.mapping kind derived entries).resolve declared).element = visit at hinner ⊢
            obtain ⟨replaced, heach⟩ := Visits.each_ofEntries kind.isMutable
              (R := fun own _ old new => (own = true → kind.isMutable = true) ∧ Shaped view? own
                ((Value.mapping kind derived entries).resolve declared).element old new)
              (fun _ _ => ⟨by simp, .same _ _⟩)
              (fun _ item => ⟨(hinner item).writable_of_replaced, (hinner item).shaped⟩)
              (fun _ item => ⟨by simp, (hinner item).shaped.graft⟩) 0 entries
            have hwritable := writable_of_each (S := fun _ _ _ => True)
              (heach.mono fun _ _ _ _ _ h => ⟨h.1, trivial⟩)
            have hlength := heach.length_eq
            obtain ⟨own, rfl, hshaped⟩ := heach.places
            rw [List.length_map] at hwritable hlength
            refine ⟨by simp, .entries hcategory
              (Shaped.map_fst_zipWith (f := fun _ new => new) hlength) hwritable ?_⟩
            intro i old new hold hnew
            obtain ⟨value, hvalue⟩ := Shaped.exists_getElem? hlength hold
            simp only [List.getElem?_zipWith, hold, hvalue, Option.some.injEq] at hnew
            subst hnew
            exact (hshaped i old.2 value (by simp [hold]) hvalue).2
        | _ => exact Visit.shapes_of_unchanged rfl rfl

end

end Walk

/-! ## Records -/

theorem RecordView.declaredOf_eq {view : RecordView} (hdistinct : (view.fields.map Field.name).Nodup)
    {field : Field} (hfield : field ∈ view.fields) : view.declaredOf field.name = field.declared := by
  unfold RecordView.declaredOf
  cases hfound : view.fields.find? fun other => other.name == field.name with
  | none =>
      have hnone := List.find?_eq_none.1 hfound field hfield
      simp at hnone
  | some other =>
      have hname := List.find?_some hfound
      have hsame := List.inj_on_of_nodup_map hdistinct (List.mem_of_find?_eq_some hfound) hfield
        (beq_iff_eq.1 hname)
      rw [hsame]

namespace Value

theorem putSlot_eq_set {name : String} {content : Value} (new : Value)
    {slots : List (String × Value)} (h : slots.lookup name = some content) :
    ∃ i, slots[i]? = some (name, content) ∧ putSlot name new slots = slots.set i (name, new) := by
  induction slots with
  | nil => simp at h
  | cons slot slots ih =>
      obtain ⟨own, old⟩ := slot
      by_cases hown : own = name
      · subst hown
        simp only [List.lookup_cons, beq_self_eq_true, Option.some.injEq] at h
        subst h
        exact ⟨0, rfl, by simp [putSlot]⟩
      · have hname : (name == own) = false := by simpa using Ne.symm hown
        simp only [List.lookup_cons, hname] at h
        obtain ⟨i, hi, hset⟩ := ih h
        exact ⟨i + 1, hi, by simp [putSlot, hown, hset]⟩

end Value

namespace Shaped

variable {written : Bool} {declared : Annotation} {value content new : Value}

theorem field {view : RecordView} (hcategory : (value.resolve declared).category = .record)
    (hview : view? value.classOf = some view) (hdistinct : (view.fields.map Field.name).Nodup)
    {field : Field} (hfield : field ∈ view.fields)
    (hcontent : value.fieldContent? field.name = some content)
    (h : Shaped view? written field.declared content new) :
    Shaped view? (!value.isMutable && written) declared value (value.withField field.name new) := by
  rw [← RecordView.declaredOf_eq hdistinct hfield] at h
  cases value with
  | box old =>
      simp only [Value.fieldContent?] at hcontent
      split at hcontent
      · rename_i hname
        cases hcontent
        rw [beq_iff_eq.1 hname] at h
        have hboxed := Shaped.boxField hcategory hview h
        simpa [Value.withField, hname, Value.isMutable] using hboxed
      · cases hcontent
  | record head slots =>
      obtain ⟨i, hi, hset⟩ := Value.putSlot_eq_set new hcontent
      have hlt := (List.getElem?_eq_some_iff.1 hi).1
      have hwritten : anyWritten (fun j => j == i && written) slots.length = written := by
        rw [Bool.eq_iff_iff, anyWritten_eq_true_iff]
        constructor
        · rintro ⟨j, -, hj⟩
          exact (Bool.and_eq_true_iff.1 hj).2
        · intro hwritten
          exact ⟨i, hlt, by simp [hwritten]⟩
      have hslot (j : Nat) (old last : String × Value) (hold : slots[j]? = some old)
          (hlast : (slots.set i (field.name, new))[j]? = some last) :
          (j = i ∧ old = (field.name, content) ∧ last = (field.name, new)) ∨ (j ≠ i ∧ last = old) := by
        by_cases hj : j = i
        · subst hj
          rw [List.getElem?_set_self hlt, Option.some.injEq] at hlast
          rw [hi, Option.some.injEq] at hold
          exact .inl ⟨rfl, hold.symm, hlast.symm⟩
        · rw [List.getElem?_set_ne (Ne.symm hj), hold, Option.some.injEq] at hlast
          exact .inr ⟨hj, hlast.symm⟩
      have hnames : (slots.set i (field.name, new)).map Prod.fst = slots.map Prod.fst := by
        have hname : (slots.map Prod.fst)[i]? = some field.name := by rw [List.getElem?_map, hi]; rfl
        obtain ⟨hbound, hname⟩ := List.getElem?_eq_some_iff.1 hname
        rw [List.map_set, ← hname, List.set_getElem_self]
      show Shaped view? (!head.isMutable && written) declared (.record head slots)
        (.record head (Value.putSlot field.name new slots))
      rw [hset, ← hwritten]
      apply Shaped.fields hcategory hview hnames
      · intro j old last hold hlast hundeclared
        rcases hslot j old last hold hlast with ⟨-, rfl, -⟩ | ⟨-, rfl⟩
        · exact absurd rfl (hundeclared field hfield)
        · rfl
      · intro j old last hold hlast
        rcases hslot j old last hold hlast with ⟨rfl, rfl, rfl⟩ | ⟨hj, rfl⟩
        · simpa using h
        · have hunwritten : (j == i && written) = false := by simp [hj]
          rw [hunwritten]
          exact .same _ _
  | _ => simp [Value.fieldContent?, Value.field?] at hcontent

end Shaped

namespace Walk

variable {walk : Walk} {descend : Bool → Annotation → Value → RuleSet → Visit} {declared : Annotation}
  {value : Value} {writable : Bool} {rules : RuleSet}

theorem shapes_step (hdescend : ∀ writable declared value rules,
      (descend writable declared value rules).Shapes walk.view? writable declared value)
    {view : RecordView} (hcategory : (value.resolve declared).category = .record)
    (hview : walk.view? value.classOf = some view)
    (hdistinct : (view.fields.map Field.name).Nodup) {first : RecordStep}
    (hfirst : ∀ field rules, first = .descend field rules → field ∈ view.fields) :
    (Visit.step descend walk.tagKey view.typeName writable value first).Shapes walk.view? writable
        declared value ∧
      (Visit.step descend walk.tagKey view.typeName writable value first).value.classOf =
        value.classOf := by
  cases first with
  | readFields | readRules | unknown => exact ⟨Visit.shapes_of_unchanged rfl rfl, rfl⟩
  | descend field own =>
      simp only [Visit.step, Visit.field]
      cases hcontent : value.fieldContent? field.name with
      | none => exact ⟨Visit.shapes_of_unchanged rfl rfl, rfl⟩
      | some content =>
          have hinner := hdescend (value.isMutable || writable) field.declared content own
          refine ⟨⟨fun hreplaced => ?_, ?_⟩, Value.classOf_withField _ _ _⟩
          · obtain ⟨hfixed, hreplaced⟩ := Bool.and_eq_true_iff.1 hreplaced
            have hwritable := hinner.writable_of_replaced hreplaced
            simp_all
          · exact .field hcategory hview hdistinct (hfirst field own rfl) hcontent hinner.shaped

theorem shapes_steps (hdescend : ∀ writable declared value rules,
      (descend writable declared value rules).Shapes walk.view? writable declared value)
    {view : RecordView} (hcategory : (value.resolve declared).category = .record)
    (hview : walk.view? value.classOf = some view)
    (hdistinct : (view.fields.map Field.name).Nodup) {plan : List RecordStep}
    (hplan : ∀ field rules, .descend field rules ∈ plan → field ∈ view.fields) :
    (Visit.steps descend walk.tagKey view.typeName writable plan value).Shapes walk.view? writable
      declared value := by
  induction plan generalizing value with
  | nil => exact Visit.shapes_of_unchanged rfl rfl
  | cons first rest ih =>
      obtain ⟨hstep, hclass⟩ : (Visit.step descend walk.tagKey view.typeName writable value
          first).Shapes walk.view? writable declared value ∧ _ :=
        shapes_step hdescend hcategory hview hdistinct fun field own h => hplan field own (by simp [h])
      refine hstep.andThen fun _ => ih ?_ ?_ fun field own hmem => hplan field own (by simp [hmem])
      · rw [hstep.shaped.resolve_eq, hcategory]
      · rw [hclass, hview]

theorem shapes_record (hdescend : ∀ writable declared value rules,
      (descend writable declared value rules).Shapes walk.view? writable declared value)
    (hdistinct : walk.DistinctFields) (hassign : walk.AssignsNothing)
    (hcategory : (value.resolve declared).category = .record) :
    (Visit.record descend walk.tokenize walk.tagKey walk.context walk.view? writable value
      rules).Shapes walk.view? writable declared value := by
  unfold Visit.record
  cases hnull : value.isNull with
  | true => exact Visit.shapes_missing hnull _
  | false =>
      simp only [Bool.false_eq_true, if_false]
      split
      · exact Visit.shapes_of_unchanged rfl rfl
      · split
        · exact Visit.shapes_of_unchanged rfl rfl
        · split
          · rename_i view hview
            refine Visit.Shapes.after (Visit.Shapes.andThen ?_ fun _ => ?_) _
            · exact shapes_steps hdescend hcategory hview (hdistinct _ _ hview)
                fun field own hmem => (RecordStep.of_descend_mem_all hmem).1
            · have hself := hook_value_of_assignsNothing view.typeName none walk.context
              have hcontext :=
                hook_value_of_assignsNothing view.typeName (some walk.context) walk.context
              refine Visit.Shapes.andThen ?_ fun _ => ?_
              · obtain ⟨hkept, hunreplaced⟩ := hself _ (selfHook_assignsNothing hassign hview)
                exact Visit.shapes_of_unchanged hkept hunreplaced
              · obtain ⟨hkept, hunreplaced⟩ := hcontext _ (contextHook_assignsNothing hassign hview)
                exact Visit.shapes_of_unchanged hkept hunreplaced
          · exact Visit.shapes_of_unchanged rfl rfl

/-- A visit leaves a value that a walk can make of the visited one, whether it passes or stops. -/
theorem shapes_visit (hmatched : walk.Matched)
    (hdistinct : walk.DistinctFields) (hassign : walk.AssignsNothing) (levels : Nat)
    (writable : Bool) (declared : Annotation) (value : Value) (rules : RuleSet) :
    (walk.visit levels writable declared value rules).Shapes walk.view? writable declared value := by
  induction levels generalizing writable declared value rules with
  | zero => exact Visit.shapes_of_unchanged rfl rfl
  | succ levels ih =>
      simp only [Walk.visit]
      cases hevaluator : walk.evaluator? (value.resolve declared).category with
      | none => exact Visit.shapes_of_unchanged rfl rfl
      | some evaluator =>
          have hcategory := (hmatched _ _ hevaluator).symm
          cases evaluator with
          | optional => exact shapes_optional ih hcategory
          | reference => exact shapes_reference ih hcategory
          | scalar kind => exact ScalarKind.shapes_visit hcategory writable rules
          | record => exact shapes_record ih hdistinct hassign hcategory
          | sequence => exact shapes_sequence ih hcategory
          | mapping => exact shapes_mapping ih hcategory

end Walk

end RuleCheck
