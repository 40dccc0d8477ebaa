import RuleCheck.Proofs.Object.Held
import RuleCheck.Proofs.Shape.Shaped

/-! # Values that take up the same objects

Two values are congruent if they have parts in the same places, and can be changed in the same places.  What
a walk makes of a value is congruent to it.  If slots with the same footprint hold congruent values one after
the other, then the objects that can be changed are the same ones, and the first slot in the end holds what is
left of its old value.
-/

namespace RuleCheck

/-- Having parts in the same places, and being open to change in the same places. -/
inductive Congruent : Value → Value → Prop
  | atom {value new : Value} (h : value.frame? = none) (hnew : new.frame? = none) : Congruent value new
  | node {value new : Value} {frame newFrame : Frame} (hframe : value.frame? = some frame)
      (hnewFrame : new.frame? = some newFrame) (hmutable : newFrame.isMutable = frame.isMutable)
      (hlength : new.children.length = value.children.length)
      (h : ∀ (i : Nat) (old last : Value), value.children[i]? = some old → new.children[i]? = some last →
        Congruent old last) : Congruent value new

namespace Congruent

theorem refl (value : Value) : Congruent value value := by
  cases hframe : value.frame? with
  | none => exact .atom hframe hframe
  | some frame =>
      apply Congruent.node hframe hframe rfl rfl
      intro i old last hold hlast
      have hsame : old = last := Option.some.inj (hold.symm.trans hlast)
      have hlt := Value.depth_lt_of_child (List.mem_of_getElem? hold)
      rw [← hsame]
      exact refl old
termination_by value.depth

theorem box {value new : Value} (h : Congruent value new) : Congruent (.box value) (.box new) := by
  have hframe (content : Value) : (Value.box content).frame? = some .box := rfl
  apply Congruent.node (hframe value) (hframe new) rfl rfl
  intro i old last hold hlast
  cases i with
  | zero =>
      cases hold
      cases hlast
      exact h
  | succ i => cases hold

/-- Parts under other names and keys. -/
theorem of_pairs {α β : Type} {olds : List (α × Value)} {news : List (β × Value)}
    (h : ∀ (i : Nat) (old : α × Value) (new : β × Value), olds[i]? = some old → news[i]? = some new →
      Congruent old.2 new.2) (i : Nat) (old new : Value) (hold : (olds.map Prod.snd)[i]? = some old)
    (hnew : (news.map Prod.snd)[i]? = some new) : Congruent old new := by
  rw [List.getElem?_map, Option.map_eq_some_iff] at hold hnew
  obtain ⟨own, hold, rfl⟩ := hold
  obtain ⟨last, hnew, rfl⟩ := hnew
  exact h i own last hold hnew

end Congruent

/-- What is made of the items of a sequence is put into an object like the one it was. -/
theorem Value.congruent_rebuild {value : Value} {declared : Annotation} (hnull : value.isNull = false)
    (hcategory : (value.resolve declared).category = .list) {items news : List Value}
    (hitems : value.items? = some items) (hlength : news.length = items.length)
    (hrange : ∀ start stop step, value = .range start stop step → news = items) (replaced : Bool)
    (h : ∀ (i : Nat) (old new : Value), items[i]? = some old → news[i]? = some new → Congruent old new) :
    Congruent value (value.rebuild replaced news) := by
  rcases list_of_resolve hnull hcategory with
    ⟨kind, derived, olds, rfl⟩ | ⟨start, stop, step, rfl⟩ | ⟨head, slots, rfl, htuple⟩
  · cases hitems
    unfold rebuild
    split
    · rename_i hrebuilt
      cases kind with
      | tuple => exact .node rfl rfl rfl hlength h
      | list | deque | set | frozenset => simp [isRebuilt] at hrebuilt
    · exact .node rfl rfl rfl hlength h
  · simpa [rebuild, isRebuilt, withItems] using Congruent.refl (.range start stop step)
  · have hfixed : head.isMutable = false := by simp [RecordHead.isMutable, htuple]
    rw [items?_of_isTuple htuple, Option.some.injEq] at hitems
    subst hitems
    have hchildren := children_rebuild_record htuple (by simpa using hlength) replaced
    have hnodes : ∃ frame, ((Value.record head slots).rebuild replaced news).frame? = some frame ∧
        frame.isMutable = false := by
      unfold rebuild
      split
      · exact ⟨_, rfl, rfl⟩
      · simp only [withItems, htuple, if_true]
        exact ⟨.record head _, rfl, hfixed⟩
    obtain ⟨frame, hframe, hmutable⟩ := hnodes
    have hlike : frame.isMutable = (Frame.record head (slots.map Prod.fst)).isMutable :=
      hmutable.trans hfixed.symm
    rw [← hchildren] at hlength h
    exact .node rfl hframe hlike hlength h

theorem Shaped.congruent {view? : Class → Option RecordView} {written : Bool} {declared : Annotation}
    {value new : Value} (h : Shaped view? written declared value new) : Congruent value new := by
  induction h with
  | same declared value => exact .refl value
  | scalar hcategory =>
      rcases Value.scalar_of_resolve hcategory with rfl | ⟨origin, content, rfl, -⟩
      · exact .atom rfl rfl
      · exact .atom rfl rfl
  | present _ _ _ ih => exact ih
  | content _ _ ih | boxField _ _ _ ih => exact ih.box
  | items hcategory hnull hitems hlength hwritable h ih =>
      exact Value.congruent_rebuild hnull hcategory hitems hlength
        (fun start stop step hvalue =>
          Shaped.range_items start stop step hvalue hitems hlength hwritable h) _ ih
  | entries _ hkeys _ _ ih =>
      exact .node rfl rfl rfl (by simpa [Value.children] using congrArg List.length hkeys)
        (Congruent.of_pairs ih)
  | fields _ _ hnames _ _ ih =>
      exact .node rfl rfl rfl (by simpa [Value.children] using congrArg List.length hnames)
        (Congruent.of_pairs ih)

/-! ## What is left of a value that cannot be changed itself -/

namespace Value

theorem graft_of_atom {value : Value} (h : value.frame? = none) (new : Value) : value.graft new = value := by
  cases value <;> first | (cases h; done) | simp [graft]

theorem graft_of_node {value new : Value} {frame : Frame} (hframe : value.frame? = some frame)
    (hfixed : frame.isMutable = false) (hlength : new.children.length = value.children.length) :
    (value.graft new).frame? = some frame ∧
      (value.graft new).children = List.zipWith graft value.children new.children := by
  rw [← isMutable_of_frame hframe] at hfixed
  cases value with
  | sequence kind derived items =>
      have hkind : kind.isMutable = false := hfixed
      simp only [graft, hkind, Bool.false_eq_true, if_false]
      exact ⟨hframe, graftItems_eq_zipWith hlength⟩
  | mapping kind derived entries =>
      have hkind : kind.isMutable = false := hfixed
      have hsize : new.children.length = entries.length := by simpa [children] using hlength
      cases hframe
      simp only [graft, hkind, Bool.false_eq_true, if_false, graftEntries_eq_zipWith hsize]
      generalize new.children = news at hsize
      simp only [frame?, Shaped.map_fst_zipWith hsize, children, List.map_zipWith, List.zipWith_map_left,
        and_self]
  | record head slots =>
      have hhead : head.isMutable = false := hfixed
      have hsize : new.children.length = slots.length := by simpa [children] using hlength
      cases hframe
      simp only [graft, hhead, Bool.false_eq_true, if_false, graftSlots_eq_zipWith hsize]
      generalize new.children = news at hsize
      simp only [frame?, Shaped.map_fst_zipWith hsize, children, List.map_zipWith, List.zipWith_map_left,
        and_self]
  | box content => cases hfixed
  | _ => cases hframe

end Value

/-! ## Slots with one footprint -/

namespace Store

variable {store later : Store} {slot new : Slot} {value last : Value} {footprint own other : List Nat}

/-- The parts of two objects pair by pair, if the values in them are related one by one. -/
theorem exists_pairs {P : Value → Value → Prop} {parts news : List Held}
    (hlength : last.children.length = value.children.length)
    (hchildren : value.children = parts.map Held.value) (hlasts : last.children = news.map Held.value)
    (h : ∀ (i : Nat) (old new : Value), value.children[i]? = some old → last.children[i]? = some new →
      P old new) :
    ∃ pairs : List (Held × Held), parts = pairs.map Prod.fst ∧ news = pairs.map Prod.snd ∧
      ∀ pair ∈ pairs, P pair.1.value pair.2.value := by
  have hsize : news.length = parts.length := by simpa [hchildren, hlasts] using hlength
  refine ⟨parts.zip news, (List.map_fst_zip (by omega)).symm, (List.map_snd_zip (by omega)).symm, ?_⟩
  intro pair hpair
  obtain ⟨i, hi⟩ := List.mem_iff_getElem?.1 hpair
  rw [List.getElem?_zip_eq_some] at hi
  apply h i
  · rw [hchildren, List.getElem?_map, hi.1]; rfl
  · rw [hlasts, List.getElem?_map, hi.2]; rfl

theorem Holds.length_eq (h : store.Holds slot value own) (hnew : later.Holds new last other)
    (hcongruent : Congruent value last) : other.length = own.length := by
  induction hcongruent generalizing slot new own other with
  | atom hvalue hlast =>
      rw [(h.atom_eq hvalue).2, (hnew.atom_eq hlast).2]
  | node hframe hnewFrame hmutable hlength _ ih =>
      obtain ⟨address, parts, -, hchildren, rfl, howns⟩ := h.owns hframe
      obtain ⟨address', news, -, hlasts, rfl, hnews⟩ := hnew.owns hnewFrame
      obtain ⟨pairs, rfl, rfl, hpairs⟩ := exists_pairs
        (P := fun old last => ∀ {slot new : Slot} {own other : List Nat}, store.Holds slot old own →
          later.Holds new last other → other.length = own.length) hlength hchildren hlasts ih
      have hparts : (pairs.map Prod.snd).map (fun part => part.footprint.length) =
          (pairs.map Prod.fst).map fun part => part.footprint.length := by
        rw [List.map_map, List.map_map]
        apply List.map_congr_left
        intro pair hpair
        exact hpairs pair hpair (howns.holds _ (List.mem_map_of_mem hpair))
          (hnews.holds _ (List.mem_map_of_mem hpair))
      simp only [Frame.extent, List.length_append, List.length_flatMap, hparts, Frame.footprint, hmutable]
      split <;> rfl

/--
Slots with one footprint hold congruent values, one in an earlier and one in a later store.  If only objects that
can be changed are different, then the first slot holds in the later store what is left of its old value.
-/
theorem Holds.graft (h : store.Holds slot value footprint) (hnew : later.Holds new last footprint)
    (hcongruent : Congruent value last) (hkeeps : store.Keeps later other) :
    later.Holds slot (value.graft last) footprint := by
  induction hcongruent generalizing slot new footprint with
  | atom hvalue =>
      obtain ⟨rfl, rfl⟩ := h.atom_eq hvalue
      rw [Value.graft_of_atom hvalue]
      exact .atom hvalue
  | @node value last frame newFrame hframe hnewFrame hmutable hlength heach ih =>
      obtain ⟨address, parts, rfl, hchildren, hextent, howns⟩ := h.owns hframe
      obtain ⟨address', news, rfl, hlasts, hextent', hnews⟩ := hnew.owns hnewFrame
      have hsame := hextent.symm.trans hextent'
      simp only [Frame.extent, Frame.footprint, hmutable] at hsame
      cases hfixed : frame.isMutable with
      | true =>
          -- one and the same object, which is the first one of both footprints
          simp only [hfixed, if_true] at hsame
          have hvalue := Value.isMutable_of_frame hframe
          rw [Value.graft_of_isMutable (hvalue.trans hfixed), (List.cons.inj hsame).1]
          exact hnew
      | false =>
          -- the cell of the first slot is still there, with parts that have the footprints of the new ones
          simp only [hfixed, Bool.false_eq_true, if_false, List.nil_append] at hsame
          obtain ⟨pairs, rfl, rfl, hpairs⟩ := exists_pairs hlength hchildren hlasts
            fun i old new hold hnew => And.intro (heach i old new hold hnew) (@ih i old new hold hnew)
          have hprints : ∀ pair ∈ pairs, pair.1.footprint = pair.2.footprint := by
            rw [← List.map_inj_left]
            have hlengths : pairs.map (fun pair => pair.1.footprint.length) =
                pairs.map fun pair => pair.2.footprint.length := by
              apply List.map_congr_left
              intro pair hpair
              exact ((howns.holds _ (List.mem_map_of_mem hpair)).length_eq
                (hnews.holds _ (List.mem_map_of_mem hpair)) (hpairs pair hpair).1).symm
            rw [List.eq_iff_flatten_eq]
            constructor
            · simpa [List.flatMap_def, Function.comp_def] using hsame
            · simpa [Function.comp_def] using hlengths
          have hcell := hkeeps address _ howns.cell fun hmutable =>
            absurd (hfixed.symm.trans hmutable) Bool.false_ne_true
          obtain ⟨hleft, hlefts⟩ := Value.graft_of_node hframe hfixed hlength
          have howned : later.Owns address frame (pairs.map fun pair =>
              ⟨pair.1.slot, pair.1.value.graft pair.2.value, pair.1.footprint⟩) := by
            refine ⟨by simpa [Function.comp_def] using hcell, fun part hpart => ?_⟩
            obtain ⟨pair, hpair, rfl⟩ := List.mem_map.1 hpart
            have hnew := hnews.holds _ (List.mem_map_of_mem hpair)
            rw [← hprints pair hpair] at hnew
            exact (hpairs pair hpair).2 (howns.holds _ (List.mem_map_of_mem hpair)) hnew
          have hheld := howned.object hleft (by
            rw [hlefts, hchildren, hlasts]
            simp [List.zipWith_map_left, List.zipWith_map_right, List.zipWith_self, Function.comp_def])
          rw [hextent]
          simpa [Frame.extent, List.flatMap_map] using hheld

end Store

end RuleCheck
