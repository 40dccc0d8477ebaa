import RuleCheck.Proofs.Shape.Visits

/-! # Spots inside a value

A spot is a value inside of another one, together with what is declared of it there, and the turns that lead to
it.  What a walk makes of a value has the same spots, and so has what it leaves in the old object; at each of
them stands what was made of the value that was there.
-/

namespace RuleCheck

/-- A turn from a value to one directly inside of it, or to the same one below an optional layer. -/
inductive Turn where
  | present
  | content
  | item (index : Nat)
  | entry (index : Nat)
  | field (name : String)
  deriving DecidableEq, Repr

/-- A value with what is declared of it. -/
structure Spot where
  declared : Annotation
  value : Value

namespace Spot

/-- The category of the value, and what is declared of the things inside. -/
def resolved (spot : Spot) : Resolved :=
  spot.value.resolve spot.declared

end Spot

namespace Walk

inductive Turns (walk : Walk) : Spot → Turn → Spot → Prop
  | present {declared : Annotation} {value : Value}
      (hcategory : (value.resolve declared).category = .optional) (hnull : value.isNull = false) :
      Turns walk ⟨declared, value⟩ .present ⟨(value.resolve declared).element, value⟩
  | content {declared : Annotation} {value : Value}
      (hcategory : ((Value.box value).resolve declared).category = .reference) :
      Turns walk ⟨declared, .box value⟩ .content ⟨((Value.box value).resolve declared).element, value⟩
  | item {declared : Annotation} {value item : Value} {items : List Value} {index : Nat}
      (hcategory : (value.resolve declared).category = .list) (hnull : value.isNull = false)
      (hitems : value.items? = some items) (hitem : items[index]? = some item) :
      Turns walk ⟨declared, value⟩ (.item index) ⟨(value.resolve declared).item index, item⟩
  | entry {declared : Annotation} {kind : MappingKind} {derived : Option String}
      {entries : List (Value × Value)} {index : Nat} {entry : Value × Value}
      (hcategory : ((Value.mapping kind derived entries).resolve declared).category = .map)
      (hentry : entries[index]? = some entry) :
      Turns walk ⟨declared, .mapping kind derived entries⟩ (.entry index)
        ⟨((Value.mapping kind derived entries).resolve declared).element, entry.2⟩
  | field {declared : Annotation} {value content : Value} {view : RecordView} {field : Field}
      (hcategory : (value.resolve declared).category = .record)
      (hview : walk.view? value.classOf = some view) (hfield : field ∈ view.fields)
      (hcontent : value.fieldContent? field.name = some content) :
      Turns walk ⟨declared, value⟩ (.field field.name) ⟨field.declared, content⟩

/-- What turns lead to, one after another. -/
inductive Leads (walk : Walk) : Spot → List Turn → Spot → Prop
  | here (spot : Spot) : Leads walk spot [] spot
  | turn {spot next last : Spot} {first : Turn} {turns : List Turn} (hturn : walk.Turns spot first next)
      (hrest : Leads walk next turns last) : Leads walk spot (first :: turns) last

end Walk

/-! ## The spots of what a walk makes of a value -/

/-- The place of the first slot of a name, in all lists of slots with the same names. -/
theorem Value.exists_lookup_index {slots : List (String × Value)} {name : String} {content : Value}
    (h : slots.lookup name = some content) :
    ∃ i : Nat, slots[i]? = some (name, content) ∧ ∀ others : List (String × Value),
      others.map Prod.fst = slots.map Prod.fst → others.lookup name = others[i]?.map Prod.snd := by
  induction slots with
  | nil => cases h
  | cons slot slots ih =>
      obtain ⟨own, old⟩ := slot
      by_cases hown : name = own
      · subst hown
        simp only [List.lookup_cons, beq_self_eq_true, Option.some.injEq] at h
        subst h
        refine ⟨0, rfl, fun others hnames => ?_⟩
        cases others with
        | nil => cases hnames
        | cons other others =>
            obtain ⟨own, new⟩ := other
            obtain ⟨rfl, -⟩ := List.cons.inj hnames
            simp
      · have hname : (name == own) = false := by simpa using hown
        simp only [List.lookup_cons, hname] at h
        obtain ⟨i, hslot, hothers⟩ := ih h
        refine ⟨i + 1, hslot, fun others hnames => ?_⟩
        cases others with
        | nil => cases hnames
        | cons other others =>
            obtain ⟨own', new⟩ := other
            obtain ⟨rfl, hrest⟩ := List.cons.inj hnames
            simpa [List.lookup_cons, hname] using hothers others hrest

namespace Walk

/--
A turn can be taken in what a walk made of a value, and in what it left in the old object.  The one leads to what
was made of the value at the turn; the other one to the same, or to what is left of its old object.
-/
def TurnStays (walk : Walk) (declared : Annotation) (value new : Value) (turn : Turn) (next : Spot) : Prop :=
  ∃ own inner left, walk.Turns ⟨declared, new⟩ turn ⟨next.declared, inner⟩ ∧
    Shaped walk.view? own next.declared next.value inner ∧
    walk.Turns ⟨declared, value.graft new⟩ turn ⟨next.declared, left⟩ ∧
    (left = inner ∨ left = next.value.graft inner)

end Walk

namespace Shaped

variable {walk : Walk} {written : Bool} {declared : Annotation} {value new : Value}

open Walk (Turns TurnStays)

theorem turn_item {items : List Value} {index : Nat} {item : Value}
    (h : Shaped walk.view? written declared value new) (hsame : new ≠ value)
    (hcategory : (value.resolve declared).category = .list) (hnull : value.isNull = false)
    (hitems : value.items? = some items) (hitem : items[index]? = some item) :
    walk.TurnStays declared value new (.item index) ⟨(value.resolve declared).item index, item⟩ := by
  have hresolve := h.resolve_eq
  have hgrafted := h.graft.resolve_eq
  obtain ⟨news, own, hlength, -, hnew, hwritable, hparts⟩ :=
    (of_list hcategory hitems h).resolve_left fun hno => hsame hno.2
  have hrange := fun start stop step hvalue =>
    range_items start stop step hvalue hitems hlength hwritable hparts
  obtain ⟨hnews, -, hpresent⟩ := Value.items?_rebuild hnull hcategory hitems hlength hrange
    (anyWritten own items.length)
  rw [← hnew] at hnews hpresent
  obtain ⟨inner, hinner⟩ := exists_getElem? hlength hitem
  have hturn := @Turns.item walk declared new inner news index (hresolve ▸ hcategory) hpresent hnews hinner
  rw [hresolve] at hturn
  cases hmutable : value.isMutable with
  | true =>
      refine ⟨own index, inner, inner, hturn, hparts index item inner hitem hinner, ?_, .inl rfl⟩
      rw [Value.graft_of_isMutable hmutable]
      exact hturn
  | false =>
      have hgraft := Value.graft_rebuild_fixed hnull hcategory hmutable hitems hlength
        (anyWritten own items.length)
      rw [← hnew, Value.graftItems_eq_zipWith hlength] at hgraft
      have hlefts : (List.zipWith Value.graft items news).length = items.length := by simp [hlength]
      have hkept : ∀ start stop step, value = .range start stop step →
          List.zipWith Value.graft items news = items := by
        intro start stop step hvalue
        rw [hrange start stop step hvalue, ← Value.graftItems_eq_zipWith rfl, Value.graftItems_self]
      obtain ⟨hleft, -, -⟩ := Value.items?_rebuild hnull hcategory hitems hlefts hkept false
      have hrebuilt : value.rebuild false (List.zipWith Value.graft items news) = value.graft new := by
        rw [hgraft]
        rfl
      rw [hrebuilt] at hleft
      have hold : (List.zipWith Value.graft items news)[index]? = some (item.graft inner) := by
        simp [List.getElem?_zipWith, hitem, hinner]
      have hturn' := @Turns.item walk declared (value.graft new) _ _ index (hgrafted ▸ hcategory)
        (h.graft.isNull hnull) hleft hold
      rw [hgrafted] at hturn'
      exact ⟨own index, inner, _, hturn, hparts index item inner hitem hinner, hturn', .inr rfl⟩

theorem turn_entry {kind : MappingKind} {derived : Option String} {entries : List (Value × Value)}
    {index : Nat} {entry : Value × Value}
    (h : Shaped walk.view? written declared (.mapping kind derived entries) new)
    (hsame : new ≠ .mapping kind derived entries)
    (hcategory : ((Value.mapping kind derived entries).resolve declared).category = .map)
    (hentry : entries[index]? = some entry) :
    walk.TurnStays declared (.mapping kind derived entries) new (.entry index)
      ⟨((Value.mapping kind derived entries).resolve declared).element, entry.2⟩ := by
  obtain ⟨-, hnew⟩ := of_mapping hcategory h
  obtain ⟨news, own, rfl, hkeys, -, hparts⟩ := hnew.resolve_left hsame
  have hlength : news.length = entries.length := by simpa using congrArg List.length hkeys
  obtain ⟨inner, hinner⟩ := exists_getElem? hlength hentry
  have hturns (others : List (Value × Value)) {other : Value × Value}
      (hother : others[index]? = some other) :
      walk.Turns ⟨declared, .mapping kind derived others⟩ (.entry index)
        ⟨((Value.mapping kind derived entries).resolve declared).element, other.2⟩ := by
    have hresolve := (Value.alike_mapping kind derived derived others entries).resolve_eq declared
    rw [← hresolve]
    exact .entry (hresolve ▸ hcategory) hother
  refine ⟨own index, inner.2, ?_⟩
  cases hkind : kind.isMutable with
  | true =>
      refine ⟨inner.2, hturns news hinner, hparts index entry inner hentry hinner, ?_, .inl rfl⟩
      have hmutable : (Value.mapping kind derived entries).isMutable = true := hkind
      rw [Value.graft_of_isMutable hmutable]
      exact hturns news hinner
  | false =>
      have hlefts : (news.map Prod.snd).length = entries.length := by simpa using hlength
      refine ⟨entry.2.graft inner.2, hturns news hinner, hparts index entry inner hentry hinner, ?_,
        .inr rfl⟩
      simp only [Value.graft, hkind, Bool.false_eq_true, if_false, Value.children,
        Value.graftEntries_eq_zipWith hlefts]
      have hleft : (List.zipWith (fun old new => (old.1, old.2.graft new)) entries
          (news.map Prod.snd))[index]? = some (entry.1, entry.2.graft inner.2) := by
        simp [List.getElem?_zipWith, hentry, hinner]
      exact hturns _ hleft

theorem turn_field {content : Value} {view : RecordView} {field : Field}
    (h : Shaped walk.view? written declared value new) (hsame : new ≠ value)
    (hcategory : (value.resolve declared).category = .record)
    (hview : walk.view? value.classOf = some view) (hdistinct : (view.fields.map Field.name).Nodup)
    (hfield : field ∈ view.fields) (hcontent : value.fieldContent? field.name = some content) :
    walk.TurnStays declared value new (.field field.name) ⟨field.declared, content⟩ := by
  have hdeclared := RecordView.declaredOf_eq hdistinct hfield
  have hresolve := h.resolve_eq
  cases value with
  | box old =>
      obtain ⟨-, hnew⟩ := of_boxField hview hcategory h
      obtain ⟨own, inner, rfl, hinner⟩ := hnew.resolve_left hsame
      simp only [Value.fieldContent?] at hcontent
      split at hcontent
      · rename_i hname
        cases hcontent
        rw [← beq_iff_eq.1 hname, hdeclared] at hinner
        have hturn := @Turns.field walk declared (.box inner) inner view field (hresolve ▸ hcategory) hview
          hfield (by simp [Value.fieldContent?, hname])
        exact ⟨own, inner, inner, hturn, hinner, by simpa [Value.graft] using hturn, .inl rfl⟩
      · cases hcontent
  | record head slots =>
      obtain ⟨news, own, rfl, -, hnames, -, hparts⟩ :=
        (of_record hview hcategory h).resolve_left fun hno => hsame hno.2
      have hlookup : slots.lookup field.name = some content := hcontent
      obtain ⟨i, hslot, hothers⟩ := Value.exists_lookup_index hlookup
      have hlength : news.length = slots.length := by simpa using congrArg List.length hnames
      obtain ⟨inner, hinner⟩ := exists_getElem? hlength hslot
      have hshaped := hparts i _ inner hslot hinner
      rw [hdeclared] at hshaped
      have hturns (others : List (String × Value)) {other : String × Value}
          (hsame : others.map Prod.fst = slots.map Prod.fst) (hother : others[i]? = some other) :
          walk.Turns ⟨declared, .record head others⟩ (.field field.name) ⟨field.declared, other.2⟩ := by
        have hresolve := (Value.alike_record head others slots).resolve_eq declared
        refine .field (hresolve ▸ hcategory) hview hfield ?_
        exact (hothers others hsame).trans (by rw [hother]; rfl)
      refine ⟨own i, inner.2, ?_⟩
      cases hhead : head.isMutable with
      | true =>
          refine ⟨inner.2, hturns news hnames hinner, hshaped, ?_, .inl rfl⟩
          have hmutable : (Value.record head slots).isMutable = true := hhead
          rw [Value.graft_of_isMutable hmutable]
          exact hturns news hnames hinner
      | false =>
          have hlefts : (news.map Prod.snd).length = slots.length := by simpa using hlength
          refine ⟨content.graft inner.2, hturns news hnames hinner, hshaped, ?_, .inr rfl⟩
          simp only [Value.graft, hhead, Bool.false_eq_true, if_false, Value.children,
            Value.graftSlots_eq_zipWith hlefts]
          have hleft : (List.zipWith (fun old new => (old.1, old.2.graft new)) slots
              (news.map Prod.snd))[i]? = some (field.name, content.graft inner.2) := by
            simp [List.getElem?_zipWith, hslot, hinner]
          exact hturns _ (map_fst_zipWith hlefts) hleft
  | _ => simp [Value.fieldContent?, Value.field?] at hcontent

theorem turn (hdistinct : walk.DistinctFields) (h : Shaped walk.view? written declared value new) {turn : Turn}
    {next : Spot} (hturn : walk.Turns ⟨declared, value⟩ turn next) :
    walk.TurnStays declared value new turn next := by
  by_cases hsame : new = value
  · subst hsame
    refine ⟨false, next.value, next.value, hturn, .same _ _, ?_, .inl rfl⟩
    rw [Value.graft_self]
    exact hturn
  · cases hturn with
    | present hcategory hnull =>
        have hresolve := h.resolve_eq
        have hgrafted := h.graft.resolve_eq
        obtain ⟨-, hinner⟩ := (of_optional hcategory h).resolve_left fun hno => hsame hno.2
        have hturn := @Turns.present walk declared new (hresolve ▸ hcategory) (h.isNull hnull)
        have hturn' := @Turns.present walk declared (value.graft new) (hgrafted ▸ hcategory)
          (h.graft.isNull hnull)
        rw [hresolve] at hturn
        rw [hgrafted] at hturn'
        exact ⟨written, new, value.graft new, hturn, hinner, hturn', .inr rfl⟩
    | content hcategory =>
        have hresolve := h.resolve_eq
        obtain ⟨-, hnew⟩ := of_reference hcategory h
        obtain ⟨own, inner, rfl, hinner⟩ := hnew.resolve_left hsame
        have hturn := @Turns.content walk declared inner (hresolve ▸ hcategory)
        rw [hresolve] at hturn
        exact ⟨own, inner, inner, hturn, hinner, by simpa [Value.graft] using hturn, .inl rfl⟩
    | item hcategory hnull hitems hitem => exact h.turn_item hsame hcategory hnull hitems hitem
    | entry hcategory hentry => exact h.turn_entry hsame hcategory hentry
    | field hcategory hview hfield hcontent =>
        exact h.turn_field hsame hcategory hview (hdistinct _ _ hview) hfield hcontent

end Shaped

namespace Walk

variable {walk : Walk} {spot next : Spot}

theorem Turns.of_present (h : walk.Turns spot .present next) : spot.value = next.value := by
  cases h
  rfl

theorem Turns.of_content (h : walk.Turns spot .content next) : spot.value = .box next.value := by
  cases h
  rfl

theorem Turns.of_item {index : Nat} (h : walk.Turns spot (.item index) next) :
    ∃ items, spot.value.items? = some items ∧ items[index]? = some next.value := by
  cases h with
  | item _ _ hitems hitem => exact ⟨_, hitems, hitem⟩

theorem Turns.of_entry {index : Nat} (h : walk.Turns spot (.entry index) next) :
    ∃ kind derived entries entry, spot.value = .mapping kind derived entries ∧
      entries[index]? = some entry ∧ entry.2 = next.value := by
  cases h with
  | entry _ hentry => exact ⟨_, _, _, _, rfl, hentry, rfl⟩

theorem Turns.of_field {name : String} (h : walk.Turns spot (.field name) next) :
    spot.value.fieldContent? name = some next.value := by
  cases h with
  | field _ _ _ hcontent => exact hcontent

theorem Turns.eq (hdistinct : walk.DistinctFields) {other : Spot} {turn : Turn}
    (h : walk.Turns spot turn next) (hother : walk.Turns spot turn other) : other = next := by
  cases h with
  | present | content => cases hother; rfl
  | item hcategory hnull hitems hitem =>
      cases hother with
      | item _ _ hitems' hitem' =>
          cases hitems.symm.trans hitems'
          cases hitem.symm.trans hitem'
          rfl
  | entry hcategory hentry =>
      cases hother with
      | entry _ hentry' =>
          cases hentry.symm.trans hentry'
          rfl
  | @field _ _ _ view field hcategory hview hfield hcontent =>
      generalize hname : field.name = name at hother
      cases hother with
      | @field _ _ _ _ other hcategory' hview' hfield' hcontent' =>
          cases hview.symm.trans hview'
          have hsame := List.inj_on_of_nodup_map (hdistinct _ _ hview) hfield hfield' hname
          subst hsame
          cases hcontent.symm.trans hcontent'
          rfl

/--
Where turns lead to in what a walk made of a value, they lead to as well in what it left in the old object, or
to what is left of the old object there.
-/
theorem Leads.graft (hdistinct : walk.DistinctFields) {declared : Annotation} {value new : Value}
    {turns : List Turn} {last : Spot} (h : walk.Leads ⟨declared, value⟩ turns last) {written : Bool}
    (hshaped : Shaped walk.view? written declared value new) {made : Value}
    (hmade : walk.Leads ⟨declared, new⟩ turns ⟨last.declared, made⟩) :
    ∃ left, walk.Leads ⟨declared, value.graft new⟩ turns ⟨last.declared, left⟩ ∧
      (left = made ∨ left = last.value.graft made) := by
  generalize hspot : Spot.mk declared value = spot at h
  induction h generalizing declared value new written with
  | here =>
      subst hspot
      cases hmade
      exact ⟨value.graft made, .here _, .inr rfl⟩
  | @turn _ next last first turns hturn hrest ih =>
      subst hspot
      obtain ⟨own, inner, left, hinner, hown, hleft, hor⟩ := hshaped.turn hdistinct hturn
      cases hmade with
      | turn hfirst hmade =>
          cases hinner.eq hdistinct hfirst
          rcases hor with rfl | rfl
          · exact ⟨made, .turn hleft hmade, .inl rfl⟩
          · obtain ⟨final, hfinal, hor⟩ := ih hown hmade rfl
            exact ⟨final, .turn hleft hfinal, hor⟩

end Walk

end RuleCheck
