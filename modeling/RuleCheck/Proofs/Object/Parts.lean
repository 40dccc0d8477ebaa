import RuleCheck.Proofs.Object.Walk
import RuleCheck.Proofs.Object.Congruent

/-! # Visits to the parts of objects

What visits to the parts of an object do to it in the store, compared with what visits do to the parts of the
value that it holds.  An object that can be changed stays at its address; one that cannot is exchanged for a
copy as soon as one of its slots is written.
-/

namespace RuleCheck

namespace Store

variable {address : Nat} {frame : Frame}

/-- Two parts of an object, or an object and one of its parts, have no object in common that can be changed. -/
theorem apart_of_nodup {before after : List Held} {part : Held}
    (hnodup : (frame.extent address (before ++ part :: after)).Nodup) :
    (frame.isMutable = true → ∀ other ∈ before ++ part :: after, address ∉ other.footprint) ∧
      (∀ other ∈ before ++ after, ∀ own ∈ other.footprint, own ∉ part.footprint) ∧
      part.footprint.Nodup := by
  rw [Frame.extent, List.nodup_append] at hnodup
  obtain ⟨-, hparts, hown⟩ := hnodup
  refine ⟨fun hmutable other hother hmem => ?_, fun other hother own hown hpart => ?_, ?_⟩
  · have haddress : address ∈ frame.footprint address := by simp [Frame.footprint, hmutable]
    exact hown address haddress address (List.mem_flatMap.2 ⟨other, hother, hmem⟩) rfl
  · rw [List.flatMap_append, List.flatMap_cons, List.nodup_append, List.nodup_append] at hparts
    obtain ⟨-, ⟨-, -, hafter⟩, hbefore⟩ := hparts
    rcases List.mem_append.1 hother with hother | hother
    · exact hbefore own (List.mem_flatMap.2 ⟨other, hother, hown⟩) own
        (List.mem_append_left _ hpart) rfl
    · exact hafter own hpart own (List.mem_flatMap.2 ⟨other, hother, hown⟩) rfl
  · rw [List.flatMap_append, List.flatMap_cons, List.nodup_append, List.nodup_append] at hparts
    exact hparts.2.1.1

end Store

namespace Done

theorem andThen_of_stop {done : Done} {next : Store → Slot → Done} {stop : Stop}
    (h : done.stop = some stop) : done.andThen next = done := by
  simp [andThen, h]

theorem andThen_of_passed {done : Done} {next : Store → Slot → Done} (h : done.stop = none) :
    done.andThen next = ⟨(next done.store done.slot).store, (next done.store done.slot).slot,
      done.replaced || (next done.store done.slot).replaced, (next done.store done.slot).stop⟩ := by
  simp [andThen, h]

/-- A visit over objects that does what a visit to the value does, and changes only what it may. -/
structure Matches (store : Store) (slot : Slot) (footprint : List Nat) (visit : Visit) (done : Done) :
    Prop where
  stop : done.stop = visit.stop
  replaced : done.replaced = visit.replaced
  holds : done.store.Holds done.slot visit.value footprint
  keeps : store.Keeps done.store footprint
  stays : done.replaced = false → done.slot = slot

/-- Visits over objects that do what visits to values do, as deep as values are read. -/
def Simulates (reach : Nat) (visit : Bool → Annotation → Value → RuleSet → Visit)
    (descend : Store → Bool → Annotation → Slot → RuleSet → Done) : Prop :=
  ∀ {store : Store} {slot : Slot} {value : Value} {footprint : List Nat},
    store.Holds slot value footprint → footprint.Nodup → value.depth ≤ reach →
      ∀ (writable : Bool) (declared : Annotation) (rules : RuleSet),
        Matches store slot footprint (visit writable declared value rules)
          (descend store writable declared slot rules)

/--
What visits to parts of an object leave: the object, or a copy of it if it cannot be changed and a slot was
written, with the same objects in it that can be changed.
-/
structure Leaves (store : Store) (address : Nat) (frame copied : Frame) (footprint : List Nat)
    (replaced : Bool) (stop : Option Stop) (parts : List Held) (done : Done) (last : Nat) : Prop where
  slot : done.slot = .object last
  owns : done.store.Owns last (if replaced && !frame.isMutable then copied else frame) parts
  extent : (if replaced && !frame.isMutable then copied else frame).extent last parts = footprint
  replaced : done.replaced = (replaced && !frame.isMutable)
  stop : done.stop = stop
  keeps : store.Keeps done.store footprint
  stays : done.replaced = false → last = address

variable {store : Store} {address last : Nat} {frame copied : Frame} {footprint : List Nat}
  {replaced later : Bool} {stop : Option Stop} {parts news : List Held} {done : Done}

theorem leaves_pass (howns : store.Owns address frame parts) (copied : Frame) :
    Leaves store address frame copied (frame.extent address parts) false none parts
      (pass store (.object address)) address where
  slot := rfl
  owns := howns
  extent := rfl
  replaced := rfl
  stop := rfl
  keeps := .refl store _
  stays _ := rfl

theorem Leaves.after {before : Store}
    (h : Leaves store address frame copied footprint replaced stop parts done last)
    (hkeeps : before.Keeps store footprint) :
    Leaves before address frame copied footprint replaced stop parts done last :=
  { h with keeps := hkeeps.trans h.keeps }

theorem Leaves.andThen {next : Store → Slot → Done} {final : Nat}
    (h : Leaves store address frame copied footprint replaced none parts done last)
    (hcopied : frame.isMutable = false → copied.isMutable = false)
    (hnext : Leaves done.store last (if replaced && !frame.isMutable then copied else frame) copied footprint
      later stop news (next done.store (.object last)) final) :
    Leaves store address frame copied footprint (replaced || later) stop news (done.andThen next) final := by
  have hsame : (if replaced && !frame.isMutable then copied else frame).isMutable = frame.isMutable := by
    split
    · rename_i hwritten
      simp_all
    · rfl
  have hframe : (if later && !frame.isMutable then copied
      else if replaced && !frame.isMutable then copied else frame) =
      if (replaced || later) && !frame.isMutable then copied else frame := by
    cases replaced <;> cases later <;> cases frame.isMutable <;> rfl
  have howns := hnext.owns
  have hextent := hnext.extent
  have hreplaced := hnext.replaced
  rw [hsame] at howns hextent hreplaced
  rw [hframe] at howns hextent
  rw [andThen_of_passed h.stop, h.slot]
  refine ⟨hnext.slot, howns, hextent, ?_, hnext.stop, h.keeps.trans hnext.keeps, fun hstays => ?_⟩
  · simp only [h.replaced, hreplaced, Bool.and_or_distrib_right]
  · obtain ⟨hfirst, hlast⟩ := Bool.or_eq_false_iff.1 hstays
    rw [hnext.stays hlast, h.stays hfirst]

section

variable {before after : List Held} {part : Held}

theorem map_slot_set (before after : List Held) (old new : Held) :
    ((before ++ old :: after).map Held.slot).set before.length new.slot =
      (before ++ new :: after).map Held.slot := by
  simp

theorem flatMap_footprint (before after : List Held) {old new : Held}
    (h : new.footprint = old.footprint) :
    (before ++ new :: after).flatMap Held.footprint = (before ++ old :: after).flatMap Held.footprint := by
  simp [h]

theorem leaves_put {old : Held} {copy : Frame → Frame} (stop : Option Stop)
    (hcell : store[address]? = some ⟨frame, (before ++ old :: after).map Held.slot⟩)
    (hparts : ∀ other ∈ before ++ part :: after, store.Holds other.slot other.value other.footprint)
    (hfootprint : part.footprint = old.footprint)
    (hnodup : (frame.extent address (before ++ part :: after)).Nodup)
    (hcopied : frame.isMutable = false → (copy frame).isMutable = false) :
    ∃ last, Leaves store address frame (copy frame) (frame.extent address (before ++ old :: after)) true stop
      (before ++ part :: after) (put copy before.length part.slot stop store (.object address)) last := by
  have hset := map_slot_set before after old part
  have hsame := flatMap_footprint before after hfootprint
  cases hmutable : frame.isMutable with
  | true =>
      obtain ⟨hapart, -, -⟩ := Store.apart_of_nodup hnodup
      have hkeeps : store.Keeps (store.set address ⟨frame, (before ++ part :: after).map Held.slot⟩)
          [address] := Store.keeps_set hcell hmutable
      have hlt := (List.getElem?_eq_some_iff.1 hcell).1
      have hput : put copy before.length part.slot stop store (.object address) =
          ⟨store.set address ⟨frame, (before ++ part :: after).map Held.slot⟩, .object address, false,
            stop⟩ := by
        simp only [put, hcell, hset, hmutable, if_true]
      rw [hput]
      refine ⟨address, rfl, ?_, ?_, ?_, rfl, ?_, fun _ => rfl⟩
      · simp only [hmutable, Bool.not_true, Bool.and_false, Bool.false_eq_true, if_false]
        refine ⟨List.getElem?_set_self hlt, fun other hother => ?_⟩
        apply (hparts other hother).keep hkeeps
        intro own hown hsingle
        rw [List.mem_singleton.1 hsingle] at hown
        exact hapart hmutable other hother hown
      · simp [Frame.extent, hsame, hmutable]
      · simp [hmutable]
      · apply hkeeps.mono
        intro own hown
        rw [List.mem_singleton.1 hown]
        exact Frame.mem_extent_self hmutable
  | false =>
      have hfixed := hcopied hmutable
      have hkeeps := store.keeps_append ⟨copy frame, (before ++ part :: after).map Held.slot⟩
      have hput : put copy before.length part.slot stop store (.object address) =
          ⟨store ++ [⟨copy frame, (before ++ part :: after).map Held.slot⟩], .object store.length, true,
            stop⟩ := by
        simp only [put, hcell, hset, hmutable, Bool.false_eq_true, if_false]
      rw [hput]
      refine ⟨store.length, rfl, ?_, ?_, ?_, rfl, hkeeps _, by simp⟩
      · simp only [hmutable, Bool.not_false, Bool.and_self, if_true]
        refine ⟨List.getElem?_concat_length, fun other hother => ?_⟩
        exact (hparts other hother).keep (hkeeps []) fun _ _ => List.not_mem_nil
      · simp [Frame.extent, Frame.footprint, hfixed, hmutable, hsame]
      · simp [hmutable]

theorem owns_others {later : Store} (howns : store.Owns address frame (before ++ part :: after))
    (hnodup : (frame.extent address (before ++ part :: after)).Nodup)
    (hkeeps : store.Keeps later part.footprint) :
    later[address]? = some ⟨frame, (before ++ part :: after).map Held.slot⟩ ∧
      ∀ other ∈ before ++ after, later.Holds other.slot other.value other.footprint := by
  obtain ⟨hown, hothers, -⟩ := Store.apart_of_nodup hnodup
  constructor
  · exact hkeeps address _ howns.cell fun hmutable => hown hmutable part (by simp)
  · intro other hother
    have hheld := howns.holds other (by
      rw [List.mem_append, List.mem_cons]
      exact (List.mem_append.1 hother).imp_right .inr)
    exact hheld.keep hkeeps (hothers other hother)

theorem holds_parts {later : Store} {new : Held}
    (hothers : ∀ other ∈ before ++ after, later.Holds other.slot other.value other.footprint)
    (hholds : later.Holds new.slot new.value new.footprint) :
    ∀ other ∈ before ++ new :: after, later.Holds other.slot other.value other.footprint := by
  intro other hother
  rcases List.mem_append.1 hother with hother | hother
  · exact hothers other (List.mem_append_left _ hother)
  · rcases List.mem_cons.1 hother with rfl | hother
    · exact hholds
    · exact hothers other (List.mem_append_right _ hother)

theorem owns_part {later : Store} {value : Value}
    (hcell : later[address]? = some ⟨frame, (before ++ part :: after).map Held.slot⟩)
    (hothers : ∀ other ∈ before ++ after, later.Holds other.slot other.value other.footprint)
    (hholds : later.Holds part.slot value part.footprint) :
    later.Owns address frame (before ++ ⟨part.slot, value, part.footprint⟩ :: after) := by
  have hslots : (before ++ part :: after).map Held.slot =
      (before ++ ⟨part.slot, value, part.footprint⟩ :: after).map Held.slot := by simp
  exact ⟨hslots ▸ hcell, holds_parts hothers hholds⟩

variable {descend : Store → Bool → Annotation → Slot → RuleSet → Done} {writable : Bool}
  {declared : Annotation} {rules : RuleSet} {visit : Visit}

theorem leaves_part (copy : Frame → Frame) (report : Stop → Stop)
    (howns : store.Owns address frame (before ++ part :: after))
    (hnodup : (frame.extent address (before ++ part :: after)).Nodup)
    (hcopied : frame.isMutable = false → (copy frame).isMutable = false)
    (hinner : Matches store part.slot part.footprint visit
      (descend store writable declared part.slot rules)) :
    ∃ last slot, Leaves store address frame (copy frame) (frame.extent address (before ++ part :: after))
      visit.replaced (visit.stop.map report) (before ++ ⟨slot, visit.value, part.footprint⟩ :: after)
      (Done.part descend copy writable declared rules report before.length part.slot store
        (.object address)) last := by
  unfold Done.part
  generalize descend store writable declared part.slot rules = inner at hinner
  obtain ⟨hcell, hothers⟩ := owns_others howns hnodup hinner.keeps
  have hkeeps : store.Keeps inner.store (frame.extent address (before ++ part :: after)) :=
    hinner.keeps.mono fun own hown => Frame.mem_extent_of_part (by simp) hown
  have hholds := hinner.holds
  simp only [← hinner.stop, ← hinner.replaced]
  cases hreplaced : inner.replaced with
  | false =>
      rw [hinner.stays hreplaced] at hholds
      have howned := owns_part hcell hothers hholds
      simp only [Bool.false_eq_true, if_false]
      refine ⟨address, part.slot, rfl, howned, ?_, rfl, rfl, hkeeps, fun _ => rfl⟩
      simp [Frame.extent]
  | true =>
      let new : Held := ⟨inner.slot, visit.value, part.footprint⟩
      have hparts := @holds_parts _ _ inner.store new hothers hholds
      have hnodup : (frame.extent address (before ++ new :: after)).Nodup := by
        simpa [Frame.extent] using hnodup
      obtain ⟨last, hlast⟩ := leaves_put (inner.stop.map report) hcell hparts rfl hnodup hcopied
      exact ⟨last, inner.slot, hlast.after hkeeps⟩

theorem Leaves.unwritten {other : Frame}
    (h : Leaves store address frame copied footprint replaced stop parts done last)
    (hunwritten : (replaced && !frame.isMutable) = false) :
    Leaves store address frame other footprint false stop parts done address := by
  have hlast := h.stays (h.replaced.trans hunwritten)
  obtain ⟨hslot, howns, hextent, hreplaced, hstop, hkeeps, -⟩ := h
  simp only [hunwritten, Bool.false_eq_true, if_false] at howns hextent hreplaced
  subst hlast
  exact ⟨hslot, howns, hextent, hreplaced, hstop, hkeeps, fun _ => rfl⟩

/-! ## Items -/

variable {reach : Nat} {go : Bool → Annotation → Value → RuleSet → Visit} {later : Store}

abbrev tupleFrame : Frame := .sequence .tuple none

theorem leaves_items (hsim : Simulates reach go descend) (declared : Nat → Annotation) {rest : List Held}
    (howns : store.Owns address frame (before ++ rest))
    (hextent : frame.extent address (before ++ rest) = footprint) (hnodup : footprint.Nodup)
    (hdepth : ∀ part ∈ rest, part.value.depth ≤ reach) :
    let visits := Visits.ofItems (fun index item => go writable (declared index) item rules) before.length
      (rest.map Held.value)
    ∃ last news, Leaves store address frame tupleFrame footprint visits.replaced visits.stop (before ++ news)
        (Done.items descend writable declared rules before.length (rest.map Held.slot) store
          (.object address)) last ∧
      news.map Held.value = visits.values := by
  induction rest generalizing store address frame before with
  | nil =>
      subst hextent
      exact ⟨address, [], leaves_pass howns tupleFrame, rfl⟩
  | cons part rest ih =>
      have hown : (frame.extent address (before ++ part :: rest)).Nodup := hextent ▸ hnodup
      obtain ⟨-, -, hpart⟩ := Store.apart_of_nodup hown
      have hinner := hsim (howns.holds part (by simp)) hpart (hdepth part (by simp)) writable
        (declared before.length) rules
      obtain ⟨last, slot, hleaves⟩ := leaves_part (fun _ => tupleFrame)
        (Stop.under (Path.index before.length)) howns hown (fun _ => rfl) hinner
      rw [hextent] at hleaves
      simp only [List.map_cons, Visits.ofItems, Done.items]
      cases hstop : (go writable (declared before.length) part.value rules).stop with
      | some stop =>
          rw [hstop] at hleaves
          rw [andThen_of_stop hleaves.stop]
          exact ⟨last, _ :: rest, hleaves, rfl⟩
      | none =>
          -- the visits go on with what the first one left: the object itself, or a plain tuple
          rw [hstop, List.append_cons] at hleaves
          obtain ⟨final, news, hrest, hnews⟩ := ih hleaves.owns hleaves.extent
            fun part hpart => hdepth part (List.mem_cons_of_mem _ hpart)
          rw [List.length_append] at hrest hnews
          have hboth := hleaves.andThen (fun _ => rfl) hrest
          rw [← List.append_cons] at hboth
          exact ⟨final, _ :: news, hboth, congrArg _ hnews⟩

/-- Items without an object of their own: nothing is put back. -/
theorem items_atoms (hsim : Simulates reach go descend) (declared : Nat → Annotation) {values : List Value}
    (hatoms : ∀ value ∈ values, value.frame? = none) (hdepth : ∀ value ∈ values, value.depth ≤ reach)
    (hunwritten : ∀ (declared : Annotation) (value : Value) (rules : RuleSet),
      (go false declared value rules).replaced = false)
    (rules : RuleSet) (index : Nat) (store : Store) (owner : Slot) :
    let visits := Visits.ofItems (fun index item => go false (declared index) item rules) index values
    let done := Done.items descend false declared rules index (values.map Slot.atom) store owner
    done.stop = visits.stop ∧ done.replaced = false ∧ done.slot = owner ∧ store.Keeps done.store [] := by
  induction values generalizing index store with
  | nil => exact ⟨rfl, rfl, rfl, .refl store []⟩
  | cons value values ih =>
      have hheld : store.Holds (.atom value) value [] := .atom (hatoms value (by simp))
      have hinner := hsim hheld List.nodup_nil (hdepth value (by simp)) false (declared index) rules
      have hreplaced := hinner.replaced.trans (hunwritten (declared index) value rules)
      simp only [List.map_cons, Visits.ofItems, Done.items, Done.part, hreplaced, Bool.false_eq_true,
        if_false, hinner.stop]
      cases hstop : (go false (declared index) value rules).stop with
      | some stop => exact ⟨rfl, rfl, rfl, hinner.keeps⟩
      | none =>
          obtain ⟨hlast, hunreplaced, howner, hkeeps⟩ := ih (fun value hvalue => hatoms value (by simp [hvalue]))
            (fun value hvalue => hdepth value (by simp [hvalue])) (index + 1)
            (descend store false (declared index) (.atom value) rules).store
          simp only [Option.map_none, andThen_of_passed, Bool.false_or, Visits.cons]
          exact ⟨hlast, hunreplaced, howner, hinner.keeps.trans hkeeps⟩

/-! ## Entries -/

/-- What an entry holds after a visit to its value: a value that did not pass is not put back. -/
def leftInEntry (assigned : Bool) (value : Value) (visit : Visit) : Value :=
  if visit.stop.isSome && assigned then value.graft visit.value else visit.value

theorem entry_of_passed (report : Stop → Stop) (index : Nat) (key : Value) (slot owner : Slot)
    (h : (descend store writable declared slot rules).stop = none) :
    Done.entry descend writable declared rules index key slot store owner =
      Done.part descend id writable declared rules report index slot store owner := by
  simp [Done.entry, Done.part, h, pass]

theorem leaves_entry (key : Value) (howns : store.Owns address frame (before ++ part :: after))
    (hnodup : (frame.extent address (before ++ part :: after)).Nodup)
    (hinner : Matches store part.slot part.footprint visit
      (descend store writable declared part.slot rules))
    (hwritable : visit.replaced = true → frame.isMutable = true)
    (hcongruent : Congruent part.value visit.value) :
    ∃ slot, Leaves store address frame frame (frame.extent address (before ++ part :: after)) false
      (visit.stop.map (Stop.under (Path.key key.keyText)))
      (before ++ ⟨slot, leftInEntry frame.isMutable part.value visit, part.footprint⟩ :: after)
      (Done.entry descend writable declared rules before.length key part.slot store (.object address))
      address := by
  have hunexchanged : (visit.replaced && !frame.isMutable) = false := by
    cases hreplaced : visit.replaced with
    | false => rfl
    | true => rw [hwritable hreplaced]; rfl
  cases hstop : visit.stop with
  | none =>
      rw [entry_of_passed id before.length key part.slot (.object address) (hinner.stop.trans hstop)]
      obtain ⟨last, slot, hleaves⟩ := leaves_part id id howns hnodup (fun h => h) hinner
      have hleft : leftInEntry frame.isMutable part.value visit = visit.value := by
        simp [leftInEntry, hstop]
      rw [hleft]
      rw [hstop] at hleaves
      exact ⟨slot, hleaves.unwritten hunexchanged⟩
  | some stop =>
      have hdone : Done.entry descend writable declared rules before.length key part.slot store
          (.object address) = ⟨(descend store writable declared part.slot rules).store, .object address, false,
            some (stop.under (Path.key key.keyText))⟩ := by
        simp [Done.entry, hinner.stop.trans hstop]
      rw [hdone]
      generalize descend store writable declared part.slot rules = inner at hinner
      obtain ⟨hcell, hothers⟩ := owns_others howns hnodup hinner.keeps
      have hholds : inner.store.Holds part.slot (leftInEntry frame.isMutable part.value visit)
          part.footprint := by
        have hpart := howns.holds part (by simp)
        cases hmutable : frame.isMutable with
        | true =>
            simpa [leftInEntry, hstop] using hpart.graft hinner.holds hcongruent hinner.keeps
        | false =>
            have hunreplaced : visit.replaced = false := by simpa [hmutable] using hunexchanged
            have hslot := hinner.stays (hinner.replaced.trans hunreplaced)
            simpa [leftInEntry, hslot] using hinner.holds
      refine ⟨part.slot, rfl, owns_part hcell hothers hholds, ?_, rfl, rfl, ?_, fun _ => rfl⟩
      · simp [Frame.extent]
      · exact hinner.keeps.mono fun own hown => Frame.mem_extent_of_part (by simp) hown

theorem leaves_entries (hsim : Simulates reach go descend) {rest : List (Value × Held)}
    (howns : store.Owns address frame (before ++ rest.map Prod.snd))
    (hextent : frame.extent address (before ++ rest.map Prod.snd) = footprint) (hnodup : footprint.Nodup)
    (hdepth : ∀ entry ∈ rest, entry.2.value.depth ≤ reach)
    (hwritable : ∀ value, (go writable declared value rules).replaced = true → frame.isMutable = true)
    (hcongruent : ∀ value, Congruent value (go writable declared value rules).value) :
    let visits := Visits.ofEntries frame.isMutable (fun item => go writable declared item rules)
      (rest.map fun entry => (entry.1, entry.2.value))
    ∃ news, Leaves store address frame frame footprint false visits.stop (before ++ news)
        (Done.entries descend writable declared rules before.length
          (rest.map fun entry => (entry.1, entry.2.slot)) store (.object address)) address ∧
      news.map Held.value = visits.values := by
  induction rest generalizing store before with
  | nil =>
      subst hextent
      exact ⟨[], leaves_pass howns frame, rfl⟩
  | cons entry rest ih =>
      obtain ⟨key, part⟩ := entry
      have hown : (frame.extent address (before ++ part :: rest.map Prod.snd)).Nodup := hextent ▸ hnodup
      obtain ⟨-, -, hpart⟩ := Store.apart_of_nodup hown
      have hinner := hsim (howns.holds part (by simp)) hpart (hdepth (key, part) (by simp)) writable
        declared rules
      obtain ⟨slot, hleaves⟩ := leaves_entry key howns hown hinner (hwritable _) (hcongruent _)
      have hsame : frame.extent address (before ++ part :: rest.map Prod.snd) = footprint := hextent
      rw [hsame] at hleaves
      simp only [List.map_cons, Visits.ofEntries, Done.entries]
      cases hstop : (go writable declared part.value rules).stop with
      | some stop =>
          rw [hstop] at hleaves
          rw [andThen_of_stop hleaves.stop]
          refine ⟨_ :: rest.map Prod.snd, hleaves, ?_⟩
          cases hmutable : frame.isMutable <;>
            simp [leftInEntry, hstop, Visits.halted, Function.comp_def]
      | none =>
          rw [hstop, List.append_cons] at hleaves
          have howned := hleaves.owns
          have hextended := hleaves.extent
          rw [ite_self] at howned hextended
          obtain ⟨news, hrest, hnews⟩ := ih howned hextended
            fun entry hentry => hdepth entry (List.mem_cons_of_mem _ hentry)
          rw [List.length_append] at hrest
          have hboth := hleaves.andThen (fun hfixed => hfixed) (by rw [ite_self]; exact hrest)
          rw [← List.append_cons] at hboth
          refine ⟨_ :: news, hboth, ?_⟩
          simp [leftInEntry, hstop, Visits.cons, hnews]

end

end Done

end RuleCheck
