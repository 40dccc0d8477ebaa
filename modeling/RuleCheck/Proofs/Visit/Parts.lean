import RuleCheck.Proofs.Visit.Fields
import RuleCheck.Proofs.Visit.Stopping

/-! # The parts of a value after a visit

The items of a sequence, the entries of a mapping and the fields of a record are visited one after another.
A part is visited if all parts before it pass, and then holds what its own visit left; the parts after the
first one that stops are not touched.  The value of an entry whose visit stops is not put back if entries are
assigned: what it refers to may have changed all the same.
-/

namespace RuleCheck

/-- A part of something that is gone through part by part, and how a visit to that part alone would end. -/
structure Part (α : Type) where
  /-- What the place of the part holds as long as the part is not reached. -/
  untouched : α
  /-- What it holds if the visit to the part passes. -/
  passed : α
  /-- What it holds if the visit is stopped. -/
  halted : α
  /-- What stops the visit, if anything does, as it is told of the whole. -/
  stop : Option Stop

/--
What the places of parts hold after the parts were gone through in order, up to the first that was stopped,
and what stopped the whole: that part, or what comes after the last one.
-/
structure FailFast {α : Type} (parts : List (Part α)) (last : Option Stop) (places : List α)
    (stop : Option Stop) : Prop where
  passed (hpass : ∀ part ∈ parts, part.stop = none) : places = parts.map Part.passed ∧ stop = last
  halted {before after : List (Part α)} {part : Part α} {own : Stop}
    (hparts : parts = before ++ part :: after) (hbefore : ∀ earlier ∈ before, earlier.stop = none)
    (hstop : part.stop = some own) :
    places = before.map Part.passed ++ part.halted :: after.map Part.untouched ∧ stop = some own

namespace FailFast

variable {α : Type} {part : Part α} {parts : List (Part α)} {last stop : Option Stop} {places : List α}

theorem nil (last : Option Stop) : FailFast ([] : List (Part α)) last [] last where
  passed _ := ⟨rfl, rfl⟩
  halted hparts _ _ := by simp at hparts

theorem cons (hpart : part.stop = none) (h : FailFast parts last places stop) :
    FailFast (part :: parts) last (part.passed :: places) stop where
  passed hpass := by
    obtain ⟨hplaces, hstop⟩ := h.passed fun other hother => hpass other (List.mem_cons_of_mem part hother)
    exact ⟨by rw [hplaces, List.map_cons], hstop⟩
  halted {before after other own} hparts hbefore hstop := by
    cases before with
    | nil =>
        cases hparts
        rw [hpart] at hstop
        cases hstop
    | cons first before =>
        cases hparts
        obtain ⟨hplaces, hown⟩ := h.halted rfl
          (fun earlier hearlier => hbefore earlier (List.mem_cons_of_mem _ hearlier)) hstop
        exact ⟨by rw [hplaces, List.map_cons, List.cons_append], hown⟩

theorem stopped {own : Stop} (last : Option Stop) (hpart : part.stop = some own) (parts : List (Part α)) :
    FailFast (part :: parts) last (part.halted :: parts.map Part.untouched) (some own) where
  passed hpass := by
    rw [hpass part List.mem_cons_self] at hpart
    cases hpart
  halted {before after other found} hparts hbefore hstop := by
    cases before with
    | nil =>
        cases hparts
        rw [hpart] at hstop
        exact ⟨rfl, hstop⟩
    | cons first before =>
        cases hparts
        rw [hbefore _ List.mem_cons_self] at hpart
        cases hpart

/-- What comes after the last part may be anything that stops only if no part does. -/
theorem andThen {visit : Visit} {next : Value → Visit}
    (h : FailFast parts none places visit.stop) :
    FailFast parts (next visit.value).stop places (visit.andThen next).stop where
  passed hpass := by
    obtain ⟨hplaces, hstop⟩ := h.passed hpass
    exact ⟨hplaces, by simp [Visit.andThen, hstop]⟩
  halted hparts hbefore hstop := by
    obtain ⟨hplaces, hown⟩ := h.halted hparts hbefore hstop
    exact ⟨hplaces, by simp [Visit.andThen, hown]⟩

end FailFast

namespace Visits

/-! ## Items and entries -/

theorem ofItems_passes_iff {visit : Nat → Value → Visit} {index : Nat} {items : List Value} :
    (ofItems visit index items).stop = .none ↔
      ∀ (j : Nat) (other : Value), items[j]? = some other → (visit (index + j) other).stop = .none := by
  constructor
  · intro hpass j other hother
    have hj := (List.getElem?_eq_some_iff.1 hother).1
    rw [← length_ofItems visit index items] at hj
    obtain ⟨item, own, hitem, hstop, -, -⟩ := (ofItems_passed hpass).get (List.getElem?_eq_getElem hj)
    rw [hother] at hitem
    cases hitem
    exact hstop
  · intro hpass
    cases hstop : (ofItems visit index items).stop with
    | none => rfl
    | some stop =>
        obtain ⟨j, other, own, hother, hown, -, -⟩ := ofItems_stopped hstop
        rw [hpass j other hother] at hown
        cases hown

theorem ofEntries_passes_iff {assigned : Bool} {visit : Value → Visit}
    {entries : List (Value × Value)} :
    (ofEntries assigned visit entries).stop = .none ↔
      ∀ entry ∈ entries, (visit entry.2).stop = .none := by
  induction entries with
  | nil => simp [ofEntries, none]
  | cons first rest ih =>
      obtain ⟨key, value⟩ := first
      unfold ofEntries
      cases hfirst : (visit value).stop <;> simp [halted, cons, ih, hfirst]

def itemPart (visit : Nat → Value → Visit) (index : Nat) (item : Value) : Part Value where
  untouched := item
  passed := (visit index item).value
  halted := (visit index item).value
  stop := (visit index item).stop.map (Stop.under (Path.index index))

theorem ofItems_failFast (visit : Nat → Value → Visit) (index : Nat) (items : List Value) :
    FailFast (items.mapIdx fun i => itemPart visit (index + i)) .none
      (ofItems visit index items).values (ofItems visit index items).stop := by
  induction items generalizing index with
  | nil => exact .nil .none
  | cons item items ih =>
      have hrest := ih (index + 1)
      rw [mapIdx_cons_from]
      simp only [ofItems]
      cases hstop : (visit index item).stop with
      | none =>
          have hpart : (itemPart visit index item).stop = .none := by simp [itemPart, hstop]
          exact hrest.cons hpart
      | some own =>
          have hpart : (itemPart visit index item).stop = some (own.under (Path.index index)) := by
            simp [itemPart, hstop]
          have hhalted := FailFast.stopped .none hpart
            (items.mapIdx fun i => itemPart visit (index + 1 + i))
          have huntouched : (items.mapIdx fun i => itemPart visit (index + 1 + i)).map
              Part.untouched = items := by
            apply List.ext_getElem?
            intro i
            have hself : Part.untouched ∘ itemPart visit (index + 1 + i) = id := rfl
            simp [hself]
          rw [huntouched] at hhalted
          exact hhalted

/-- An entry as a part of its mapping; one that is stopped is not assigned. -/
def entryPart (visit : Value → Visit) (entry : Value × Value) : Part Value where
  untouched := entry.2
  passed := (visit entry.2).value
  halted := entry.2.graft (visit entry.2).value
  stop := (visit entry.2).stop.map (Stop.under (Path.key entry.1.keyText))

theorem ofEntries_failFast (visit : Value → Visit) (entries : List (Value × Value)) :
    FailFast (entries.map (entryPart visit)) .none (ofEntries true visit entries).values
      (ofEntries true visit entries).stop := by
  induction entries with
  | nil => exact .nil .none
  | cons entry entries ih =>
      obtain ⟨key, value⟩ := entry
      simp only [List.map_cons, ofEntries]
      cases hstop : (visit value).stop with
      | none =>
          have hpart : (entryPart visit (key, value)).stop = .none := by simp [entryPart, hstop]
          exact ih.cons hpart
      | some own =>
          have hpart : (entryPart visit (key, value)).stop =
              some (own.under (Path.key key.keyText)) := by simp [entryPart, hstop]
          have hhalted := FailFast.stopped .none hpart (entries.map (entryPart visit))
          rw [List.map_map] at hhalted
          exact hhalted

end Visits

/-! ## Fields -/

namespace RecordStep

/-- The steps for fields whose rules are their own: those for the fields before one, that one, and the rest. -/
theorem ofFields_split {tokenize : String → RuleSet} {field : Field} (rules : RuleSet)
    (hincluded : (tokenize field.rules).excluded = false)
    (hmain : (tokenize field.rules).has RuleSet.mainToken = false) (before after : List Field) :
    (before ++ field :: after).flatMap (ofField tokenize rules) =
      (before.flatMap (ofField tokenize rules) ++ [.readRules field.rules]) ++
        .descend field (tokenize field.rules) :: after.flatMap (ofField tokenize rules) := by
  have hfield : ofField tokenize rules field =
      [.readRules field.rules, .descend field (tokenize field.rules)] := by
    simp [ofField, hincluded, hmain]
  rw [List.flatMap_append, List.flatMap_cons, hfield]
  simp

end RecordStep

namespace Visit

variable {descend : Bool → Annotation → Value → RuleSet → Visit} {tagKey typeName : String}
  {writable : Bool} {tokenize : String → RuleSet} {rules : RuleSet}

/--
A field that is visited with its own rules only holds in the end what that visit left of what it held at first;
the visit comes after those to the fields before it.
-/
theorem field_of_steps {before after : List Field} {field : Field}
    (hdistinct : ((before ++ field :: after).map Field.name).Nodup)
    (hincluded : (tokenize field.rules).excluded = false)
    (hmain : (tokenize field.rules).has RuleSet.mainToken = false) {record : Value}
    (hpass : (steps descend tagKey typeName writable
      ((before ++ field :: after).flatMap (RecordStep.ofField tokenize rules)) record).stop = none) :
    ∃ content, record.fieldContent? field.name = some content ∧
      (steps descend tagKey typeName writable
        (before.flatMap (RecordStep.ofField tokenize rules) ++ [.readRules field.rules])
        record).stop = none ∧
      (steps descend tagKey typeName writable
        (before.flatMap (RecordStep.ofField tokenize rules) ++ [.readRules field.rules])
        record).value.fieldContent? field.name = some content ∧
      (descend (record.isMutable || writable) field.declared content
        (tokenize field.rules)).stop = none ∧
      (steps descend tagKey typeName writable
        ((before ++ field :: after).flatMap (RecordStep.ofField tokenize rules))
        record).value.fieldContent? field.name =
          some (descend (record.isMutable || writable) field.declared content
            (tokenize field.rules)).value := by
  have hnames : (∀ other ∈ before, other.name ≠ field.name) ∧
      ∀ other ∈ after, other.name ≠ field.name := by
    simp only [List.map_append, List.map_cons, List.nodup_append, List.nodup_cons, List.mem_map,
      List.mem_cons] at hdistinct
    obtain ⟨-, ⟨hafter, -⟩, hbefore⟩ := hdistinct
    refine ⟨fun other hother => ?_, fun other hother hname => hafter ⟨other, hother, hname⟩⟩
    exact hbefore _ ⟨other, hother, rfl⟩ _ (.inl rfl)
  rw [RecordStep.ofFields_split rules hincluded hmain, steps_append
    (before.flatMap (RecordStep.ofField tokenize rules) ++
      [RecordStep.readRules field.rules])] at hpass ⊢
  obtain ⟨hbefore, hlater, hvalue, -⟩ := andThen_passed hpass
  obtain ⟨hstep, hafter, hlaterValue, -⟩ := andThen_passed hlater
  obtain ⟨content, hcontent, hinner, hleft, -⟩ := step_passed hstep
  have hold := fieldContent?_of_steps (fun other own hmem => by
    rcases List.mem_append.1 hmem with hmem | hmem
    · exact hnames.1 other (mem_of_descend_mem hmem)
    · simp at hmem) hbefore
  rw [isMutable_of_steps hbefore] at hinner hleft
  refine ⟨content, hold ▸ hcontent, hbefore, hcontent, hinner, ?_⟩
  rw [hvalue]
  simp only [steps] at hlaterValue ⊢
  rw [hlaterValue, fieldContent?_of_steps (fun other own hmem =>
    hnames.2 other (mem_of_descend_mem hmem)) hafter, hleft]
  exact Value.fieldContent?_withField_self _ hcontent

/-- A field as a part of its record; one that the record lacks cannot be asked for. -/
def fieldPart (descend : Bool → Annotation → Value → RuleSet → Visit) (tokenize : String → RuleSet)
    (writable : Bool) (record : Value) (field : Field) : Part (Option Value) :=
  match record.fieldContent? field.name with
  | none => ⟨none, none, none, some (.fault (.noAttribute record.classOf.fullName field.name))⟩
  | some content =>
    let inner := descend (record.isMutable || writable) field.declared content (tokenize field.rules)
    ⟨some content, some inner.value, some inner.value, inner.stop.map (Stop.under field.name)⟩

theorem fieldPart_untouched (record : Value) (field : Field) :
    (fieldPart descend tokenize writable record field).untouched = record.fieldContent? field.name := by
  unfold fieldPart
  split
  · rename_i h
    exact h.symm
  · rename_i h
    exact h.symm

variable (descend tokenize writable) in
/-- A visit to a field ends like the part that the field is, and leaves in the field what that part tells. -/
theorem fieldPart_of_field (record : Value) (target : Field) :
    let visit := field descend writable record target (tokenize target.rules)
    let part := fieldPart descend tokenize writable record target
    visit.stop = part.stop ∧
      (part.stop = none → visit.value.fieldContent? target.name = part.passed) ∧
      (part.stop ≠ none → visit.value.fieldContent? target.name = part.halted) := by
  unfold field fieldPart
  cases hcontent : record.fieldContent? target.name with
  | none =>
      refine ⟨rfl, ?_, fun _ => hcontent⟩
      intro hstop
      cases hstop
  | some content =>
      exact ⟨rfl, fun _ => Value.fieldContent?_withField_self _ hcontent,
        fun _ => Value.fieldContent?_withField_self _ hcontent⟩

/-- The other fields, and the parts that they are, do not change in a visit to a field. -/
theorem other_of_field (record : Value) {target other : Field} {own : RuleSet}
    (hother : other.name ≠ target.name) :
    fieldPart descend tokenize writable (field descend writable record target own).value other =
      fieldPart descend tokenize writable record other := by
  unfold field
  split
  · rfl
  · unfold fieldPart
    rw [Value.fieldContent?_withField_of_ne _ _ hother, Value.isMutable_withField,
      Value.classOf_withField]

theorem fieldContent?_of_field (record : Value) {target : Field} {own : RuleSet} {name : String}
    (hother : name ≠ target.name) :
    (field descend writable record target own).value.fieldContent? name = record.fieldContent? name := by
  unfold field
  split
  · rfl
  · exact Value.fieldContent?_withField_of_ne _ _ hother

def included (tokenize : String → RuleSet) (fields : List Field) : List Field :=
  fields.filter fun field => !(tokenize field.rules).excluded

/-- A visit to a record goes through some fields in turn and leaves the others alone. -/
structure InTurn (descend : Bool → Annotation → Value → RuleSet → Visit) (tokenize : String → RuleSet)
    (writable : Bool) (fields : List Field) (record : Value) (visit : Visit) : Prop where
  parts : FailFast (fields.map (fieldPart descend tokenize writable record)) none
    (fields.map fun field => visit.value.fieldContent? field.name) visit.stop
  others (name : String) (hother : ∀ field ∈ fields, field.name ≠ name) :
    visit.value.fieldContent? name = record.fieldContent? name

/-- The first field comes before the others: a visit to it, and if it passes one to the rest. -/
theorem InTurn.cons {first : Field} {fields : List Field} {next : Value → Visit}
    (hdiffer : ∀ field ∈ fields, field.name ≠ first.name)
    (hnext : ∀ record, InTurn descend tokenize writable fields record (next record)) (record : Value) :
    InTurn descend tokenize writable (first :: fields) record
      ((field descend writable record first (tokenize first.rules)).andThen next) := by
  obtain ⟨hstop, hpassed, hhalted⟩ :=
    fieldPart_of_field descend writable tokenize record first
  generalize hvisit : field descend writable record first (tokenize first.rules) = visit at *
  have hothers (name : String) (hname : name ≠ first.name) :
      visit.value.fieldContent? name = record.fieldContent? name := by
    rw [← hvisit]
    exact fieldContent?_of_field record hname
  cases hown : visit.stop with
  | some own =>
      have hleft : visit.andThen next = visit := by simp [andThen, hown]
      rw [hown] at hstop
      have hfirst := hhalted (by simp [← hstop])
      have hrest : fields.map (fun field => visit.value.fieldContent? field.name) =
          (fields.map (fieldPart descend tokenize writable record)).map Part.untouched := by
        rw [List.map_map]
        apply List.map_congr_left
        intro field hfield
        rw [Function.comp_apply, fieldPart_untouched]
        exact hothers field.name (hdiffer field hfield)
      refine ⟨?_, fun name hother => ?_⟩
      · rw [hleft, hown, List.map_cons, List.map_cons, hfirst, hrest]
        exact .stopped none hstop.symm _
      · rw [hleft]
        exact hothers name (Ne.symm (hother first List.mem_cons_self))
  | none =>
      have hafter := hnext visit.value
      have hvalue : (visit.andThen next).value = (next visit.value).value := by simp [andThen, hown]
      have hlast : (visit.andThen next).stop = (next visit.value).stop := by simp [andThen, hown]
      rw [hown] at hstop
      have hfirst : (next visit.value).value.fieldContent? first.name =
          (fieldPart descend tokenize writable record first).passed := by
        rw [hafter.others first.name hdiffer]
        exact hpassed hstop.symm
      have hsame : fields.map (fieldPart descend tokenize writable visit.value) =
          fields.map (fieldPart descend tokenize writable record) := by
        apply List.map_congr_left
        intro field hfield
        rw [← hvisit]
        exact other_of_field record (hdiffer field hfield)
      refine ⟨?_, fun name hother => ?_⟩
      · rw [hvalue, hlast, List.map_cons, List.map_cons, hfirst, ← hsame]
        exact hafter.parts.cons hstop.symm
      · rw [hvalue, hafter.others name fun field hfield => hother field (List.mem_cons_of_mem first hfield)]
        exact hothers name (Ne.symm (hother first List.mem_cons_self))

/--
If every field is visited with its own rules only, the fields that are not excluded are gone through in turn,
and nothing else in the record changes.
-/
theorem inTurn_steps {fields : List Field} (hdistinct : (fields.map Field.name).Nodup)
    (hmain : ∀ field ∈ fields, (tokenize field.rules).has RuleSet.mainToken = false) (record : Value) :
    InTurn descend tokenize writable (included tokenize fields) record
      (steps descend tagKey typeName writable (fields.flatMap (RecordStep.ofField tokenize rules))
        record) := by
  induction fields generalizing record with
  | nil => exact ⟨.nil none, fun _ _ => rfl⟩
  | cons first rest ih =>
      obtain ⟨hfirst, hnodup⟩ := List.nodup_cons.1 hdistinct
      have hrest := ih hnodup fun field hfield => hmain field (List.mem_cons_of_mem first hfield)
      cases hexcluded : (tokenize first.rules).excluded with
      | true =>
          have hplan : RecordStep.ofField tokenize rules first = [.readRules first.rules] := by
            simp [RecordStep.ofField, hexcluded]
          have hfields : included tokenize (first :: rest) = included tokenize rest := by
            simp [included, hexcluded]
          rw [List.flatMap_cons, hplan, hfields]
          exact ⟨(hrest record).parts, (hrest record).others⟩
      | false =>
          have hplan : RecordStep.ofField tokenize rules first =
              [.readRules first.rules, .descend first (tokenize first.rules)] := by
            simp [RecordStep.ofField, hexcluded, hmain first List.mem_cons_self]
          have hfields : included tokenize (first :: rest) = first :: included tokenize rest := by
            simp [included, hexcluded]
          have hdiffer (field : Field) (hfield : field ∈ included tokenize rest) :
              field.name ≠ first.name := fun hname =>
            hfirst (List.mem_map.2 ⟨field, (List.mem_filter.1 hfield).1, hname⟩)
          rw [List.flatMap_cons, hplan, hfields]
          have hvisit := InTurn.cons hdiffer hrest record
          exact ⟨hvisit.parts, hvisit.others⟩

theorem isMutable_of_step {value : Value} (hmutable : value.isMutable = true) (first : RecordStep) :
    (step descend tagKey typeName writable value first).value.isMutable = true := by
  cases first with
  | descend target own =>
      simp only [step, field]
      split
      · exact hmutable
      · rw [Value.isMutable_withField]
        exact hmutable
  | _ => exact hmutable

/-- The fields of a record that can be written do not ask whether the record can be exchanged. -/
theorem steps_of_isMutable {value : Value} (hmutable : value.isMutable = true) (plan : List RecordStep) :
    steps descend tagKey typeName false plan value = steps descend tagKey typeName true plan value := by
  induction plan generalizing value with
  | nil => rfl
  | cons first plan ih =>
      have hstep : step descend tagKey typeName false value first =
          step descend tagKey typeName true value first := by
        cases first <;> simp [step, field, hmutable]
      have hafter : (step descend tagKey typeName true value first).value.isMutable = true :=
        isMutable_of_step hmutable first
      simp only [steps, hstep, andThen]
      rw [ih hafter]

/-! ## Values that can be written -/

/-- A list whose length passes is gone through item by item. -/
theorem sequence_failFast {kind : SequenceKind} (hkind : kind.isMutable = true) {derived : Option String}
    {items : List Value} {remaining : RuleSet} (resolved : Resolved)
    (hremaining : rules.checkLength (.sequence kind derived items) sequenceKey = .ok remaining) :
    let visit := sequence descend writable resolved (.sequence kind derived items) rules
    ∃ places, visit.value = .sequence kind derived places ∧
      FailFast (items.mapIdx (Visits.itemPart fun i item =>
        descend true (resolved.item i) item remaining)) none places visit.stop := by
  have hwritable : (Value.sequence kind derived items).itemsWritable writable = true := by
    cases kind <;> first | rfl | cases hkind
  have hrebuilt : (Value.sequence kind derived items).isRebuilt = false := by
    cases kind <;> first | rfl | cases hkind
  have hparts := Visits.ofItems_failFast
    (fun i item => descend true (resolved.item i) item remaining) 0 items
  simp only [Nat.zero_add] at hparts
  simp only [sequence, Value.isNull, Bool.false_eq_true, if_false, hremaining, Value.isOversized,
    Value.items?, hwritable, ofItems, hrebuilt, Bool.and_false]
  exact ⟨_, rfl, hparts⟩

/-- A mapping whose length passes is gone through entry by entry. -/
theorem mapping_failFast {kind : MappingKind} (hkind : kind.isMutable = true) {derived : Option String}
    {entries : List (Value × Value)} {remaining : RuleSet} (resolved : Resolved)
    (hremaining : rules.checkLength (.mapping kind derived entries) mappingKey = .ok remaining) :
    let visit := mapping descend resolved (.mapping kind derived entries) rules
    ∃ places, visit.value = (Value.mapping kind derived entries).withEntries places ∧
      FailFast (entries.map (Visits.entryPart fun item => descend true resolved.element item remaining))
        none places visit.stop := by
  have hparts := Visits.ofEntries_failFast
    (fun item => descend true resolved.element item remaining) entries
  simp only [mapping, Value.isNull, Bool.false_eq_true, if_false, hremaining, hkind]
  exact ⟨_, rfl, hparts⟩

/--
A record that can be written is gone through field by field, if nothing is redirected; if no field stops the
visit, the hooks decide.
-/
theorem record_failFast {context value : Value} {view? : Class → Option RecordView} {view : RecordView}
    (hnull : value.isNull = false) (hview : view? value.classOf = some view)
    (hdistinct : (view.fields.map Field.name).Nodup) (htargets : rules.targets = [])
    (hmain : ∀ field ∈ view.fields, (tokenize field.rules).has RuleSet.mainToken = false)
    (hrequired : rules.required = true → value.zeroFails = false ∧ value.isZero = false)
    (hhooks : ∀ left, (hooks view context left).value = left) :
    let visit := record descend tokenize tagKey context view? writable value rules
    FailFast ((included tokenize view.fields).map (fieldPart descend tokenize writable value))
        (hooks view context visit.value).stop
        ((included tokenize view.fields).map fun field => visit.value.fieldContent? field.name)
        visit.stop ∧
      ∀ name, (∀ field ∈ included tokenize view.fields, field.name ≠ name) →
        visit.value.fieldContent? name = value.fieldContent? name := by
  have hzeroFails : (rules.required && value.zeroFails) = false := by
    cases hasked : rules.required with
    | true => exact (hrequired hasked).1
    | false => rfl
  have hzero : (rules.required && value.isZero) = false := by
    cases hasked : rules.required with
    | true => exact (hrequired hasked).2
    | false => rfl
  have hplan : RecordStep.all tokenize view.fields rules =
      .readFields :: view.fields.flatMap (RecordStep.ofField tokenize rules) := by
    simp [RecordStep.all, htargets]
  have hfields : InTurn descend tokenize writable (included tokenize view.fields) value
      (steps descend tagKey view.typeName writable (RecordStep.all tokenize view.fields rules) value) := by
    have hsteps : InTurn descend tokenize writable (included tokenize view.fields) value
        (steps descend tagKey view.typeName writable
          (view.fields.flatMap (RecordStep.ofField tokenize rules)) value) :=
      inTurn_steps hdistinct hmain value
    rw [hplan]
    exact ⟨hsteps.parts, hsteps.others⟩
  simp only [record, hnull, Bool.false_eq_true, if_false, hzeroFails, hzero, hview, after_value, after_stop]
  unfold presentRecord
  generalize steps descend tagKey view.typeName writable (RecordStep.all tokenize view.fields rules) value =
    visit at hfields
  have hleft : (visit.andThen (hooks view context)).value = visit.value := by
    unfold andThen
    split
    · rfl
    · exact hhooks visit.value
  rw [hleft]
  exact ⟨hfields.parts.andThen, hfields.others⟩

end Visit

end RuleCheck
