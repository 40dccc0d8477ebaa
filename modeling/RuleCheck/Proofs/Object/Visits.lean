import RuleCheck.Proofs.Object.Parts
import RuleCheck.Proofs.Shape.Visits
import RuleCheck.Proofs.Walk.Levels

/-! # Walks over objects

A walk over the objects that a slot leads to does what a walk does to the value that the slot holds: it stops
for the same reason, and the slot that it leaves holds the value that is left, in the same objects as far as
they can be changed.
-/

namespace RuleCheck

/-! ## Fields of objects -/

namespace Value

variable {value : Value} {frame : Frame}

theorem fieldContent?_of_atom (h : value.frame? = none) (name : String) : value.fieldContent? name = none := by
  cases value <;> first | rfl | cases h

theorem lookup_eq_findIdx? (slots : List (String × Value)) (name : String) :
    slots.lookup name = ((slots.map Prod.fst).findIdx? fun own => own == name).bind fun i =>
      (slots.map Prod.snd)[i]? := by
  induction slots with
  | nil => rfl
  | cons slot slots ih =>
      obtain ⟨own, content⟩ := slot
      by_cases hown : own = name
      · subst hown
        simp [List.findIdx?_cons]
      · have hname : (name == own) = false := by simpa using Ne.symm hown
        simp [List.lookup_cons, hname, List.findIdx?_cons, hown, ih, Option.bind_map, Function.comp_def]

theorem fieldContent?_of_node (h : value.frame? = some frame) (name : String) :
    value.fieldContent? name = (frame.fieldIndex? name).bind fun i => value.children[i]? := by
  cases value with
  | box content =>
      cases h
      simp only [fieldContent?, Frame.fieldIndex?]
      split <;> rfl
  | record head slots =>
      cases h
      exact lookup_eq_findIdx? slots name
  | sequence | mapping =>
      cases h
      rfl
  | _ => cases h

theorem putSlot_pairs {slots : List (String × Value)} {name : String} {i : Nat}
    (h : (slots.map Prod.fst).findIdx? (fun own => own == name) = some i) (new : Value) :
    (putSlot name new slots).map Prod.fst = slots.map Prod.fst ∧
      (putSlot name new slots).map Prod.snd = (slots.map Prod.snd).set i new := by
  induction slots generalizing i with
  | nil => cases h
  | cons slot slots ih =>
      obtain ⟨own, content⟩ := slot
      by_cases hown : own = name
      · subst hown
        simp only [List.map_cons, List.findIdx?_cons, beq_self_eq_true, if_true, Option.some.injEq] at h
        subst h
        simp [putSlot]
      · simp only [List.map_cons, List.findIdx?_cons, beq_iff_eq, hown, if_false,
          Option.map_eq_some_iff] at h
        obtain ⟨j, hj, rfl⟩ := h
        simp [putSlot, hown, ih hj]

theorem withField_of_node (h : value.frame? = some frame) {name : String} {i : Nat}
    (hi : frame.fieldIndex? name = some i) (new : Value) :
    (value.withField name new).frame? = some frame ∧
      (value.withField name new).children = value.children.set i new := by
  cases value with
  | box content =>
      cases h
      simp only [Frame.fieldIndex?] at hi
      split at hi
      · rename_i hname
        cases hi
        simp [withField, hname, frame?, children]
      · cases hi
  | record head slots =>
      cases h
      obtain ⟨hnames, hvalues⟩ := putSlot_pairs hi new
      simp [withField, frame?, children, hnames, hvalues]
  | sequence | mapping =>
      cases h
      cases hi
  | _ => cases h

end Value

theorem Store.Owns.fieldSlot?_eq {store : Store} {address : Nat} {frame : Frame} {parts : List Held}
    (h : store.Owns address frame parts) (name : String) :
    store.fieldSlot? name (.object address) = (frame.fieldIndex? name).bind fun i =>
      parts[i]?.map fun part => (i, part.slot) := by
  simp [Store.fieldSlot?, h.cell, Function.comp_def]

namespace Done

variable {store : Store} {slot : Slot} {value : Value} {footprint : List Nat} {visit : Visit} {done : Done}

theorem matches_stay (hheld : store.Holds slot value footprint) (hvalue : visit.value = value)
    (hreplaced : visit.replaced = false) :
    Matches store slot footprint visit ⟨store, slot, false, visit.stop⟩ where
  stop := rfl
  replaced := hreplaced.symm
  holds := hvalue ▸ hheld
  keeps := .refl store footprint
  stays _ := rfl

theorem matches_halt (hheld : store.Holds slot value footprint) (stop : Stop) :
    Matches store slot footprint (.halt value stop) (.halt store slot stop) :=
  matches_stay hheld rfl rfl

theorem Matches.after (h : Matches store slot footprint visit done) (events : List Event) :
    Matches store slot footprint (visit.after events) done :=
  ⟨h.stop, h.replaced, h.holds, h.keeps, h.stays⟩

theorem Matches.andThen {next : Value → Visit} {nextDone : Store → Slot → Done}
    (h : Matches store slot footprint visit done)
    (hnext : visit.stop = none →
      Matches done.store done.slot footprint (next visit.value) (nextDone done.store done.slot)) :
    Matches store slot footprint (visit.andThen next) (done.andThen nextDone) := by
  cases hstop : visit.stop with
  | some stop =>
      have hvisit : visit.andThen next = visit := by simp [Visit.andThen, hstop]
      rw [hvisit, andThen_of_stop (h.stop.trans hstop)]
      exact h
  | none =>
      obtain ⟨hlast, hreplaced, hholds, hkeeps, hstays⟩ := hnext hstop
      rw [andThen_of_passed (h.stop.trans hstop)]
      simp only [Visit.andThen, hstop]
      refine ⟨hlast, ?_, hholds, h.keeps.trans hkeeps, fun hunwritten => ?_⟩
      · simp only [h.replaced, hreplaced]
      · obtain ⟨hfirst, hsecond⟩ := Bool.or_eq_false_iff.1 hunwritten
        rw [hstays hsecond, h.stays hfirst]

/-- What is left of an object holds what is left of a value with its parts. -/
theorem Leaves.matches {address last : Nat} {frame copied : Frame} {replaced : Bool} {stop : Option Stop}
    {parts : List Held} (h : Leaves store address frame copied footprint replaced stop parts done last)
    (hframe : visit.value.frame? = some (if replaced && !frame.isMutable then copied else frame))
    (hchildren : visit.value.children = parts.map Held.value)
    (hreplaced : visit.replaced = (replaced && !frame.isMutable)) (hstop : visit.stop = stop) :
    Matches store (.object address) footprint visit done where
  stop := h.stop.trans hstop.symm
  replaced := h.replaced.trans hreplaced.symm
  holds := by
    rw [h.slot, ← h.extent]
    exact h.owns.object hframe hchildren
  keeps := h.keeps
  stays hunwritten := by rw [h.slot, h.stays hunwritten]

section

variable {reach : Nat} {go : Bool → Annotation → Value → RuleSet → Visit}
  {descend : Store → Bool → Annotation → Slot → RuleSet → Done}

theorem exists_split {parts : List Held} {i : Nat} {part : Held} (h : parts[i]? = some part) :
    ∃ before after, parts = before ++ part :: after ∧ before.length = i := by
  obtain ⟨hlt, hpart⟩ := List.getElem?_eq_some_iff.1 h
  refine ⟨parts.take i, parts.drop (i + 1), ?_, by rw [List.length_take]; omega⟩
  rw [← hpart, ← List.drop_eq_getElem_cons hlt, List.take_append_drop]

theorem matches_field (hsim : Simulates reach go descend) (hheld : store.Holds slot value footprint)
    (hnodup : footprint.Nodup) (hdepth : value.depth ≤ reach) (writable : Bool) (target : Field)
    (rules : RuleSet) :
    Matches store slot footprint (Visit.field go writable value target rules)
      (Done.field descend reach writable target rules store slot) := by
  have hread := hheld.read_eq hdepth
  cases hframe : value.frame? with
  | none =>
      have hcontent := Value.fieldContent?_of_atom hframe target.name
      obtain ⟨rfl, -⟩ := hheld.atom_eq hframe
      simp only [Visit.field, hcontent, Done.field, Store.fieldSlot?, hread]
      exact matches_stay hheld rfl rfl
  | some frame =>
      obtain ⟨address, parts, rfl, hchildren, rfl, howns⟩ := hheld.owns hframe
      have hcontent := Value.fieldContent?_of_node hframe target.name
      have hslot := howns.fieldSlot?_eq target.name
      rw [hchildren] at hcontent
      have hunknown (hcontent : value.fieldContent? target.name = none)
          (hslot : store.fieldSlot? target.name (.object address) = none) :
          Matches store (.object address) (frame.extent address parts)
            (Visit.field go writable value target rules)
            (Done.field descend reach writable target rules store (.object address)) := by
        simp only [Visit.field, hcontent, Done.field, hslot, hread]
        exact matches_stay hheld rfl rfl
      cases hindex : frame.fieldIndex? target.name with
      | none =>
          simp only [hindex, Option.bind_none] at hcontent hslot
          exact hunknown hcontent hslot
      | some i =>
          simp only [hindex, Option.bind_some, List.getElem?_map] at hcontent hslot
          cases hpart : parts[i]? with
          | none =>
              simp only [hpart, Option.map_none] at hcontent hslot
              exact hunknown hcontent hslot
          | some part =>
              simp only [hpart, Option.map_some] at hcontent hslot
              obtain ⟨before, after, rfl, rfl⟩ := exists_split hpart
              obtain ⟨-, -, hapart⟩ := Store.apart_of_nodup hnodup
              have hlt := Value.depth_lt_of_field hcontent
              have hinner := hsim (howns.holds part (by simp)) hapart (by omega)
                (value.isMutable || writable) target.declared rules
              obtain ⟨last, slot, hleaves⟩ := leaves_part id (Stop.under target.name) howns hnodup
                (fun hfixed => hfixed) hinner
              simp only [Visit.field, hcontent, Done.field, hslot, hread]
              obtain ⟨hnewFrame, hnews⟩ := Value.withField_of_node hframe hindex (go
                (value.isMutable || writable) target.declared part.value rules).value
              apply hleaves.matches
              · rw [id_eq, ite_self]
                exact hnewFrame
              · rw [hnews, hchildren]
                simp
              · rw [Value.isMutable_of_frame hframe, Bool.and_comm]
              · rfl

theorem depth_le_of_part {parts : List Held} (hchildren : value.children = parts.map Held.value)
    (hdepth : value.depth ≤ reach) : ∀ part ∈ parts, part.value.depth ≤ reach := by
  intro part hpart
  have hmem : part.value ∈ value.children := by
    rw [hchildren]
    exact List.mem_map_of_mem hpart
  have hlt := Value.depth_lt_of_child hmem
  omega

/-! ## Records -/

theorem matches_steps (hsim : Simulates reach go descend)
    (hdeep : ∀ writable declared value rules, (go writable declared value rules).stop = none →
      (go writable declared value rules).value.depth ≤ value.depth)
    (tagKey typeName : String) (writable : Bool) (plan : List RecordStep)
    (hheld : store.Holds slot value footprint) (hnodup : footprint.Nodup) (hdepth : value.depth ≤ reach) :
    Matches store slot footprint (Visit.steps go tagKey typeName writable plan value)
      (Done.steps descend reach writable plan store slot) := by
  induction plan generalizing store slot value with
  | nil => exact matches_stay hheld rfl rfl
  | cons first rest ih =>
      have hstep : Matches store slot footprint (Visit.step go tagKey typeName writable value first)
          (Done.step descend reach writable store slot first) := by
        cases first with
        | descend target rules => exact matches_field hsim hheld hnodup hdepth writable target rules
        | readFields | readRules | unknown => exact matches_stay hheld rfl rfl
      apply hstep.andThen
      intro hpass
      apply ih hstep.holds
      cases first with
      | readFields | readRules => exact hdepth
      | unknown => cases hpass
      | descend target rules =>
          simp only [Visit.step, Visit.field] at hpass ⊢
          cases hcontent : value.fieldContent? target.name with
          | none => simp [hcontent, Visit.abort, Visit.halt] at hpass
          | some content =>
              simp only [hcontent, Option.map_eq_none_iff] at hpass ⊢
              have hle := Value.depth_withField_le hcontent (hdeep _ _ _ _ hpass)
              omega

theorem matches_record (hsim : Simulates reach go descend)
    (hdeep : ∀ writable declared value rules, (go writable declared value rules).stop = none →
      (go writable declared value rules).value.depth ≤ value.depth)
    {walk : Walk} (hassign : walk.AssignsNothing) (hheld : store.Holds slot value footprint)
    (hnodup : footprint.Nodup) (hdepth : value.depth ≤ reach) (writable : Bool) (rules : RuleSet) :
    Matches store slot footprint
      (Visit.record go walk.tokenize walk.tagKey walk.context walk.view? writable value rules)
      (Done.record descend walk reach writable value rules store slot) := by
  unfold Visit.record Done.record
  cases hnull : value.isNull with
  | true =>
      cases value <;> cases hnull
      exact matches_stay hheld rfl rfl
  | false =>
      simp only [Bool.false_eq_true, if_false]
      split
      · exact matches_stay hheld rfl rfl
      · split
        · exact matches_stay hheld rfl rfl
        · cases hview : walk.view? value.classOf with
          | none => exact matches_stay hheld rfl rfl
          | some view =>
              apply Matches.after
              have hsteps := matches_steps hsim hdeep walk.tagKey view.typeName writable
                (RecordStep.all walk.tokenize view.fields rules) hheld hnodup hdepth
              apply hsteps.andThen
              intro hpass
              have hleft := Visit.steps_induction (P := fun _ record => record.depth ≤ reach) false hdepth
                (fun field rules replaced record content _ hrecord hcontent hpass => by
                  have hle := Value.depth_withField_le hcontent (hdeep _ _ _ _ hpass)
                  omega) hpass
              have hvalue := Walk.hooks_value_of_assignsNothing hassign hview (Visit.steps go walk.tagKey
                view.typeName writable (RecordStep.all walk.tokenize view.fields rules) value).value
              rw [hsteps.holds.read_eq hleft]
              exact matches_stay hsteps.holds hvalue (Visit.hooks_replaced _ _ _)

/-! ## Scalars, boxes, sequences and mappings -/

theorem matches_scalar {kind : ScalarKind} {declared : Annotation}
    (hcategory : (value.resolve declared).category = kind.category)
    (hheld : store.Holds slot value footprint) (writable : Bool) (rules : RuleSet) :
    let visit := kind.visit writable value rules
    Matches store slot footprint visit
      ⟨store, if visit.replaced then .atom visit.value else slot, visit.replaced, visit.stop⟩ := by
  have hatom : value.frame? = none := by
    rcases Value.scalar_of_resolve hcategory with rfl | ⟨origin, content, rfl, -⟩ <;> rfl
  obtain ⟨rfl, rfl⟩ := hheld.atom_eq hatom
  have hshaped : Shaped (fun _ => none) (kind.visit writable value rules).replaced declared value
      (kind.visit writable value rules).value :=
    (ScalarKind.shapes_visit hcategory writable rules).shaped
  rcases hshaped.of_scalar hcategory with ⟨hreplaced, hvalue⟩ | ⟨hreplaced, content, hvalue, -⟩
  · simp only [hreplaced, Bool.false_eq_true, if_false]
    exact matches_stay hheld hvalue hreplaced
  · simp only [hreplaced, if_true]
    refine ⟨rfl, hreplaced.symm, ?_, .refl store [], fun h => by cases h⟩
    rw [hvalue]
    exact .atom rfl

theorem matches_optional (hsim : Simulates reach go descend) (hheld : store.Holds slot value footprint)
    (hnodup : footprint.Nodup) (hdepth : value.depth ≤ reach) (writable : Bool) (resolved : Resolved)
    (rules : RuleSet) :
    Matches store slot footprint (Visit.optional go writable resolved value rules)
      (Done.optional descend writable resolved value rules store slot) := by
  unfold Visit.optional Done.optional
  cases hnull : value.isNull with
  | true =>
      cases value <;> cases hnull
      exact matches_stay hheld rfl rfl
  | false => exact hsim hheld hnodup hdepth writable resolved.element rules

theorem matches_reference (hsim : Simulates reach go descend) (hheld : store.Holds slot value footprint)
    (hnodup : footprint.Nodup) (hdepth : value.depth ≤ reach) (resolved : Resolved) (rules : RuleSet) :
    Matches store slot footprint (Visit.reference go resolved value rules)
      (Done.reference descend resolved value rules store slot) := by
  cases value with
  | box content =>
      cases hnull : content.isNull with
      | true =>
          cases content <;> cases hnull
          unfold Visit.reference Done.reference
          cases rules.required with
          | true => exact matches_halt hheld _
          | false => exact matches_stay hheld rfl rfl
      | false =>
          obtain ⟨address, parts, rfl, hchildren, rfl, howns⟩ := hheld.owns rfl
          obtain ⟨part, rfl⟩ : ∃ part, parts = [part] := by
            rw [← List.length_eq_one_iff, ← List.length_map (f := Held.value), ← hchildren]
            rfl
          have hcontent : part.value = content := (List.cons.inj hchildren).1.symm
          have hdone : Done.reference descend resolved (.box content) rules store (.object address) =
              Done.part descend id true resolved.element rules id 0 part.slot store (.object address) := by
            have hslots : store.slots (.object address) = [part.slot] := by
              simp [Store.slots, howns.cell]
            cases content <;> first | (cases hnull; done) | simp only [Done.reference, hslots]
          obtain ⟨-, -, hapart⟩ := @Store.apart_of_nodup address .box [] [] part hnodup
          have hlt : content.depth < (Value.box content).depth :=
            Value.depth_lt_of_child (List.mem_singleton_self content)
          have hinner := hsim (howns.holds part (by simp)) hapart
            (by rw [hcontent]; omega) true resolved.element rules
          obtain ⟨last, slot, hleaves⟩ := @leaves_part store address .box [] [] part descend true
            resolved.element rules _ id id howns hnodup (fun hfixed => hfixed) hinner
          rw [hdone, Visit.reference_present hnull]
          rw [hcontent, Option.map_id] at hleaves
          apply hleaves.matches
          · rw [id_eq, ite_self]; rfl
          · rfl
          · simp [Frame.isMutable]
          · rfl
  | _ => exact matches_halt hheld _

/-- A sequence that is no range is an object, and stays one whatever is made of its items. -/
theorem node_of_list {declared : Annotation} (hnull : value.isNull = false)
    (hcategory : (value.resolve declared).category = .list)
    (hrange : ∀ start stop step, value ≠ .range start stop step) :
    ∃ frame, value.frame? = some frame ∧ value.items? = some value.children ∧
      ∀ (replaced writable : Bool) (news : List Value), news.length = value.children.length →
        (replaced = true → value.itemsWritable writable = true) →
        (value.rebuild replaced news).frame? =
            some (if replaced && !frame.isMutable then tupleFrame else frame) ∧
          (value.rebuild replaced news).children = news ∧
          (replaced && value.isRebuilt) = (replaced && !frame.isMutable) := by
  rcases Value.list_of_resolve hnull hcategory with
    ⟨kind, derived, items, rfl⟩ | ⟨start, stop, step, rfl⟩ | ⟨head, slots, rfl, htuple⟩
  · refine ⟨_, rfl, rfl, fun replaced writable news _ hwritable => ?_⟩
    cases replaced with
    | false => exact ⟨rfl, rfl, rfl⟩
    | true =>
        have hplaces := hwritable rfl
        cases kind with
        | list | deque | tuple => exact ⟨rfl, rfl, rfl⟩
        | set | frozenset => cases hplaces
  · exact absurd rfl (hrange start stop step)
  · have hfixed : head.isMutable = false := by simp [RecordHead.isMutable, htuple]
    refine ⟨_, rfl, Value.items?_of_isTuple htuple slots, fun replaced writable news hlength _ => ?_⟩
    have hsize : news.length = slots.length := by simpa [Value.children] using hlength
    cases replaced with
    | true => simp [Value.rebuild, Value.isRebuilt, htuple, Frame.isMutable, hfixed, Value.frame?,
        Value.children]
    | false =>
        have hnames : (List.zipWith (fun (slot : String × Value) item => (slot.1, item)) slots news).map
            Prod.fst = slots.map Prod.fst := Shaped.map_fst_zipWith (f := fun _ new => new) hsize
        simp [Value.rebuild, Value.withItems, htuple, Value.frame?, Value.children, hnames,
          Value.map_snd_zipWith hsize]

theorem replaced_ofItems {visit : Nat → Value → Visit}
    (h : ∀ index item, (visit index item).replaced = false) (index : Nat) (items : List Value) :
    (Visits.ofItems visit index items).replaced = false := by
  induction items generalizing index with
  | nil => rfl
  | cons item items ih =>
      cases hstop : (visit index item).stop with
      | some stop => simp [Visits.ofItems, hstop, Visits.halted, h]
      | none => simp [Visits.ofItems, hstop, Visits.cons, h, ih]

theorem matches_range (hsim : Simulates reach go descend)
    (hunwritten : ∀ declared value rules, (go false declared value rules).replaced = false)
    (declared : Nat → Annotation) (rules : RuleSet) (store : Store) (start stop step : Int)
    (hdepth : (Value.range start stop step).depth ≤ reach) :
    Matches store (.atom (.range start stop step)) []
      (.ofItems (.range start stop step) (.ofItems (fun index item => go false (declared index) item rules) 0
        (Value.rangeItems start stop step)))
      (Done.items descend false declared rules 0 ((Value.rangeItems start stop step).map Slot.atom) store
        (.atom (.range start stop step))) := by
  have hnumber (item : Value) (hitem : item ∈ Value.rangeItems start stop step) :
      ∃ n, item = .ofInt n := by
    obtain ⟨n, -, rfl⟩ := List.mem_map.1 hitem
    exact ⟨_, rfl⟩
  obtain ⟨hstop, hreplaced, hslot, hkeeps⟩ := items_atoms hsim declared
    (fun item hitem => by obtain ⟨n, rfl⟩ := hnumber item hitem; rfl)
    (fun item hitem => by obtain ⟨n, rfl⟩ := hnumber item hitem; exact hdepth)
    hunwritten rules 0 store (.atom (.range start stop step))
  refine ⟨?_, ?_, ?_, hkeeps, fun _ => hslot⟩
  · rw [Visit.ofItems_stop]
    exact hstop
  · rw [Visit.ofItems_replaced]
    exact hreplaced.trans (Bool.and_false _).symm
  · rw [hslot, Visit.ofItems_value]
    simpa [Value.rebuild, Value.isRebuilt, Value.withItems] using Store.Holds.atom rfl

/-- The items of an object, whatever kind of sequence it is. -/
theorem matches_items (hsim : Simulates reach go descend) {declared : Annotation}
    (hunwritten : ∀ declared value rules, (go false declared value rules).replaced = false)
    (hnull : value.isNull = false) (hcategory : (value.resolve declared).category = .list)
    (hrange : ∀ start stop step, value ≠ .range start stop step)
    (hheld : store.Holds slot value footprint) (hnodup : footprint.Nodup) (hdepth : value.depth ≤ reach)
    (writable : Bool) (rules : RuleSet) :
    value.items? = some value.children ∧ (∃ address, slot = .object address) ∧
    Matches store slot footprint
      (.ofItems value (.ofItems (fun index item => go (value.itemsWritable writable)
        ((value.resolve declared).item index) item rules) 0 value.children))
      (Done.items descend (value.itemsWritable writable) (value.resolve declared).item rules 0
        (store.slots slot) store slot) := by
  obtain ⟨frame, hframe, hitems, hrebuild⟩ := node_of_list hnull hcategory hrange
  obtain ⟨address, parts, rfl, hchildren, rfl, howns⟩ := hheld.owns hframe
  obtain ⟨last, news, hleaves, hnews⟩ := @leaves_items store address frame _ [] descend
    (value.itemsWritable writable) rules reach go hsim (value.resolve declared).item parts howns rfl
    hnodup (depth_le_of_part hchildren hdepth)
  have hslots : store.slots (.object address) = parts.map Held.slot := by
    simp [Store.slots, howns.cell]
  have hlength := Visits.length_ofItems (fun index item => go (value.itemsWritable writable)
    ((value.resolve declared).item index) item rules) 0 value.children
  have hplaces : (Visits.ofItems (fun index item => go (value.itemsWritable writable)
      ((value.resolve declared).item index) item rules) 0 value.children).replaced = true →
      value.itemsWritable writable = true := by
    intro hreplaced
    cases hplace : value.itemsWritable writable with
    | true => rfl
    | false =>
        rw [hplace, replaced_ofItems fun _ item => hunwritten _ item _] at hreplaced
        cases hreplaced
  rw [← hchildren, List.length_nil] at hleaves hnews
  generalize Visits.ofItems (fun index item => go (value.itemsWritable writable)
    ((value.resolve declared).item index) item rules) 0 value.children = visits
    at hleaves hnews hlength hplaces ⊢
  obtain ⟨hleft, hlefts, hreplaced⟩ := hrebuild visits.replaced writable visits.values hlength hplaces
  refine ⟨hitems, ⟨address, rfl⟩, ?_⟩
  rw [hslots]
  apply hleaves.matches
  · rw [Visit.ofItems_value]
    exact hleft
  · rw [Visit.ofItems_value, hlefts]
    exact hnews.symm
  · rw [Visit.ofItems_replaced]
    exact hreplaced
  · exact Visit.ofItems_stop _ _

theorem matches_sequence (hsim : Simulates reach go descend) {declared : Annotation}
    (hunwritten : ∀ declared value rules, (go false declared value rules).replaced = false)
    (hcategory : (value.resolve declared).category = .list) (hheld : store.Holds slot value footprint)
    (hnodup : footprint.Nodup) (hdepth : value.depth ≤ reach) (writable : Bool) (rules : RuleSet) :
    Matches store slot footprint (Visit.sequence go writable (value.resolve declared) value rules)
      (Done.sequence descend writable (value.resolve declared) value rules store slot) := by
  unfold Visit.sequence Done.sequence
  cases hnull : value.isNull with
  | true =>
      cases value <;> cases hnull
      exact matches_stay hheld rfl rfl
  | false =>
      simp only [Bool.false_eq_true, if_false]
      cases rules.checkLength value Visit.sequenceKey with
      | error stop => exact matches_halt hheld stop
      | ok remaining =>
          cases hover : value.isOversized with
          | true => exact matches_halt hheld _
          | false =>
              simp only [Bool.false_eq_true, if_false]
              by_cases hrange : ∃ start stop step, value = .range start stop step
              · obtain ⟨start, stop, step, rfl⟩ := hrange
                obtain ⟨rfl, rfl⟩ := hheld.atom_eq rfl
                exact matches_range hsim hunwritten _ remaining store start stop step hdepth
              · obtain ⟨hitems, ⟨address, rfl⟩, hmatches⟩ := matches_items hsim hunwritten hnull hcategory
                  (fun start stop step hvalue => hrange ⟨start, stop, step, hvalue⟩) hheld hnodup hdepth
                  writable remaining
                simp only [hitems]
                exact hmatches

theorem matches_entries (hsim : Simulates reach go descend) {kind : MappingKind} {derived : Option String}
    {entries : List (Value × Value)} {declared : Annotation} {rules : RuleSet}
    (hwritable : ∀ value, (go kind.isMutable declared value rules).replaced = true →
      kind.isMutable = true)
    (hcongruent : ∀ value, Congruent value (go kind.isMutable declared value rules).value)
    (hheld : store.Holds slot (.mapping kind derived entries) footprint) (hnodup : footprint.Nodup)
    (hdepth : (Value.mapping kind derived entries).depth ≤ reach) :
    let visits := Visits.ofEntries kind.isMutable (fun item => go kind.isMutable declared item rules) entries
    Matches store slot footprint
      ⟨(Value.mapping kind derived entries).withEntries visits.values, false, visits.events, visits.stop⟩
      (Done.entries descend kind.isMutable declared rules 0
        ((entries.map Prod.fst).zip (store.slots slot)) store slot) := by
  obtain ⟨address, parts, rfl, hchildren, rfl, howns⟩ := hheld.owns rfl
  have hslots : store.slots (.object address) = parts.map Held.slot := by
    simp [Store.slots, howns.cell]
  have hvalues : parts.map Held.value = entries.map Prod.snd := hchildren.symm
  -- the parts with their keys
  obtain ⟨rest, hkeys, hparts⟩ : ∃ rest : List (Value × Held),
      rest.map Prod.fst = entries.map Prod.fst ∧ rest.map Prod.snd = parts := by
    have hsize : parts.length = entries.length := by simpa using congrArg List.length hvalues
    refine ⟨(entries.map Prod.fst).zip parts, List.map_fst_zip ?_, List.map_snd_zip ?_⟩
    · rw [List.length_map]; omega
    · rw [List.length_map]; omega
  have hvalued : rest.map (fun entry => (entry.1, entry.2.value)) = entries := by
    have hpairs : entries = (entries.map Prod.fst).zip (entries.map Prod.snd) := List.zip_of_prod rfl rfl
    rw [hpairs, ← hkeys, ← hvalues, ← hparts, List.map_map]
    exact List.zip_of_prod (by simp [Function.comp_def]) (by simp [Function.comp_def])
  have hslotted : rest.map (fun entry => (entry.1, entry.2.slot)) =
      (entries.map Prod.fst).zip (store.slots (.object address)) := by
    rw [hslots, ← hkeys, ← hparts, List.map_map]
    exact List.zip_of_prod (by simp [Function.comp_def]) (by simp [Function.comp_def])
  subst hparts
  have hbelow := depth_le_of_part hchildren hdepth
  obtain ⟨news, hleaves, hnews⟩ := @leaves_entries store address (.mapping kind derived (entries.map Prod.fst))
    _ [] descend kind.isMutable declared rules reach go hsim rest howns rfl hnodup
    (fun entry hentry => hbelow entry.2 (List.mem_map_of_mem hentry)) hwritable hcongruent
  rw [hvalued] at hleaves hnews
  rw [hslotted] at hleaves
  have hlength := Visits.length_ofEntries kind.isMutable
    (fun item => go kind.isMutable declared item rules) entries
  intro visits
  apply hleaves.matches
  · have hsame : (List.zipWith (fun (entry : Value × Value) new => (entry.1, new)) entries
        visits.values).map Prod.fst = entries.map Prod.fst :=
      Shaped.map_fst_zipWith (f := fun _ new => new) hlength
    rw [ite_self]
    simp only [Value.withEntries, Value.frame?, hsame]
  · exact (Value.map_snd_zipWith hlength).trans hnews.symm
  · rfl
  · rfl

theorem matches_mapping (hsim : Simulates reach go descend)
    (hwritable : ∀ writable declared value rules, (go writable declared value rules).replaced = true →
      writable = true)
    (hcongruent : ∀ writable declared value rules,
      Congruent value (go writable declared value rules).value)
    (hheld : store.Holds slot value footprint) (hnodup : footprint.Nodup) (hdepth : value.depth ≤ reach)
    (resolved : Resolved) (rules : RuleSet) :
    Matches store slot footprint (Visit.mapping go resolved value rules)
      (Done.mapping descend resolved value rules store slot) := by
  unfold Visit.mapping Done.mapping
  cases hnull : value.isNull with
  | true =>
      cases value <;> cases hnull
      exact matches_stay hheld rfl rfl
  | false =>
      simp only [Bool.false_eq_true, if_false]
      cases rules.checkLength value Visit.mappingKey with
      | error stop => exact matches_halt hheld stop
      | ok remaining =>
          cases value with
          | mapping kind derived entries =>
              exact matches_entries hsim (hwritable _ _ · _) (hcongruent _ _ · _) hheld hnodup hdepth
          | _ => exact matches_halt hheld _

end

end Done

namespace Walk

/-- Visits do the same over objects as on values, whatever they end in. -/
theorem simulates_visitSlot {walk : Walk} (hregistry : walk.evaluator? = Registry.standard.get?)
    (hdistinct : walk.DistinctFields) (hassign : walk.AssignsNothing) (reach levels : Nat) :
    Done.Simulates reach (walk.visit levels) (walk.visitSlot reach levels) := by
  induction levels with
  | zero =>
      intro store slot value footprint hheld _ _ writable declared rules
      exact Done.matches_halt hheld _
  | succ levels ih =>
      intro store slot value footprint hheld hnodup hdepth writable declared rules
      have hshapes := shapes_visit (matched_of_standard hregistry) hdistinct hassign levels
      have hwritable (writable : Bool) (declared : Annotation) (value : Value) (rules : RuleSet)
          (hreplaced : (walk.visit levels writable declared value rules).replaced = true) :
          writable = true :=
        (hshapes writable declared value rules).writable_of_replaced hreplaced
      have hunwritten (declared : Annotation) (value : Value) (rules : RuleSet) :
          (walk.visit levels false declared value rules).replaced = false := by
        cases hreplaced : (walk.visit levels false declared value rules).replaced with
        | false => rfl
        | true => exact (hwritable _ _ _ _ hreplaced).symm
      have hdeep (writable : Bool) (declared : Annotation) (value : Value) (rules : RuleSet)
          (hpass : (walk.visit levels writable declared value rules).stop = none) :
          (walk.visit levels writable declared value rules).value.depth ≤ value.depth :=
        ((kept_depth hassign).visit_keeps hregistry levels writable declared value rules hpass).2
      simp only [Walk.visit, Walk.visitSlot, hheld.read_eq hdepth]
      cases hevaluator : walk.evaluator? (value.resolve declared).category with
      | none => exact (Done.matches_stay hheld rfl rfl)
      | some evaluator =>
          rw [hregistry] at hevaluator
          have hcategory := (Registry.category_of_standard hevaluator).symm
          cases evaluator with
          | optional => exact Done.matches_optional ih hheld hnodup hdepth writable _ rules
          | reference => exact Done.matches_reference ih hheld hnodup hdepth _ rules
          | scalar kind => exact Done.matches_scalar hcategory hheld writable rules
          | record => exact Done.matches_record ih hdeep hassign hheld hnodup hdepth writable rules
          | sequence =>
              exact Done.matches_sequence ih hunwritten hcategory hheld hnodup hdepth writable rules
          | mapping =>
              exact Done.matches_mapping ih hwritable
                (fun writable declared value rules => (hshapes writable declared value rules).shaped.congruent)
                hheld hnodup hdepth _ rules

end Walk

end RuleCheck
