import RuleCheck.Proofs.Object.Handles

/-!
# What a write through handles changes

A write to a handle whose owners can all be written exchanges the objects on the way up to the base of its seat,
and then the base.  Every slot that is not on the way, nor inside the one that is written, holds what it did.
-/

namespace RuleCheck

namespace Seat

variable {outer inner other : Seat}

theorem Over.refl (seat : Seat) : seat.Over seat :=
  ⟨rfl, List.suffix_refl _⟩

theorem Over.trans (h : outer.Over inner) (hinner : inner.Over other) : outer.Over other :=
  ⟨h.1.trans hinner.1, h.2.trans hinner.2⟩

theorem over_part (seat : Seat) (index : Nat) : seat.Over (seat.part index) :=
  ⟨rfl, List.suffix_cons index seat.below⟩

/-- What is on the way to a part, and is not that part, is on the way to its owner. -/
theorem Over.above {base : Option (Nat × Nat)} {index : Nat} {below : List Nat}
    (h : outer.Over ⟨base, index :: below⟩) (hne : outer ≠ ⟨base, index :: below⟩) :
    outer.Over ⟨base, below⟩ := by
  obtain ⟨hbase, hsuffix⟩ := h
  rcases List.suffix_cons_iff.1 hsuffix with hsame | hsuffix
  · cases outer
    cases hbase
    cases hsame
    exact absurd rfl hne
  · exact ⟨hbase, hsuffix⟩

theorem not_part_over (seat : Seat) (index : Nat) : ¬(seat.part index).Over seat := by
  intro h
  have hlength := h.2.length_le
  simp only [part, List.length_cons] at hlength
  omega

theorem part_ne_root (seat : Seat) (index : Nat) : seat.part index ≠ .root := by
  simp [part, root]

theorem over_base_iff {base : Option (Nat × Nat)} : outer.Over ⟨base, []⟩ ↔ outer = ⟨base, []⟩ := by
  obtain ⟨own, below⟩ := outer
  simp [Over]

/-- What is inside an owner is the owner, or inside one of its parts. -/
theorem Over.exists_part (h : outer.Over inner) (hne : inner ≠ outer) :
    ∃ index, (outer.part index).Over inner := by
  obtain ⟨base, below⟩ := inner
  obtain ⟨hbase, front, hfront⟩ := h
  rcases List.eq_nil_or_concat front with rfl | ⟨front, index, rfl⟩
  · refine absurd ?_ hne
    cases outer
    simp_all
  · exact ⟨index, hbase, front, by simpa [part] using hfront⟩

end Seat

namespace Store

variable {store later last : Store} {slot : Slot}

/-- Objects stay what they are, and those that cannot be changed are not. -/
def Grows (store later : Store) : Prop :=
  ∀ (address : Nat) (cell : Cell), store[address]? = some cell → ∃ new : Cell, later[address]? = some new ∧
    new.frame = cell.frame ∧ new.slots.length = cell.slots.length ∧
      (cell.frame.isMutable = false → new = cell)

theorem Grows.refl (store : Store) : store.Grows store :=
  fun _ cell hcell => ⟨cell, hcell, rfl, rfl, fun _ => rfl⟩

theorem Grows.trans (h : store.Grows later) (hlater : later.Grows last) : store.Grows last := by
  intro address cell hcell
  obtain ⟨new, hnew, hframe, hwidth, hsame⟩ := h address cell hcell
  obtain ⟨final, hfinal, hframe', hwidth', hsame'⟩ := hlater address new hnew
  refine ⟨final, hfinal, hframe'.trans hframe, hwidth'.trans hwidth, fun hfixed => ?_⟩
  rw [hsame' (hframe ▸ hfixed), hsame hfixed]

theorem grows_append (store : Store) (cell : Cell) : store.Grows (store ++ [cell]) := by
  intro address old hold
  refine ⟨old, ?_, rfl, rfl, fun _ => rfl⟩
  rw [List.getElem?_append_left (List.getElem?_eq_some_iff.1 hold).1]
  exact hold

theorem grows_set {address : Nat} {cell : Cell} (hcell : store[address]? = some cell)
    (hmutable : cell.frame.isMutable = true) (index : Nat) (new : Slot) :
    store.Grows (store.set address ⟨cell.frame, cell.slots.set index new⟩) := by
  intro other old hold
  have hlt := (List.getElem?_eq_some_iff.1 hcell).1
  by_cases hsame : address = other
  · subst hsame
    rw [hcell, Option.some.injEq] at hold
    subst hold
    refine ⟨_, List.getElem?_set_self hlt, rfl, List.length_set, fun hfixed => ?_⟩
    rw [hmutable] at hfixed
    cases hfixed
  · refine ⟨old, ?_, rfl, rfl, fun _ => rfl⟩
    rw [List.getElem?_set_ne hsame]
    exact hold

theorem Grows.cell? (h : store.Grows later) {cell : Cell} (hcell : store.cell? slot = some cell)
    (hfixed : cell.frame.isMutable = false) : later.cell? slot = some cell := by
  cases slot with
  | atom value => cases hcell
  | object address =>
      obtain ⟨new, hnew, -, -, hsame⟩ := h address cell hcell
      rw [hsame hfixed] at hnew
      exact hnew

theorem inner?_eq_some_iff {index : Nat} {inner : Slot} :
    store.inner? slot index = some inner ↔
      ∃ cell, store.cell? slot = some cell ∧ cell.frame.isMutable = false ∧
        cell.slots[index]? = some inner := by
  simp only [inner?, Option.bind_eq_some_iff, Option.filter_eq_some_iff, Bool.not_eq_true', and_assoc]

theorem Grows.inner? (h : store.Grows later) {index : Nat} {inner : Slot}
    (hinner : store.inner? slot index = some inner) : later.inner? slot index = some inner := by
  obtain ⟨cell, hcell, hfixed, hslot⟩ := inner?_eq_some_iff.1 hinner
  exact inner?_eq_some_iff.2 ⟨cell, h.cell? hcell hfixed, hfixed, hslot⟩

/-- A way through objects that cannot be changed leads where it did. -/
theorem Grows.follow (h : store.Grows later) {start : Option Slot} {below : List Nat}
    (hfollow : store.follow start below = some slot) : later.follow start below = some slot := by
  induction below generalizing slot with
  | nil => exact hfollow
  | cons index below ih =>
      obtain ⟨owner, howner, hinner⟩ := Option.bind_eq_some_iff.1 hfollow
      exact Option.bind_eq_some_iff.2 ⟨owner, ih howner, h.inner? hinner⟩

theorem follow_append (store : Store) (start : Option Slot) (front below : List Nat) :
    store.follow start (front ++ below) = store.follow (store.follow start below) front := by
  induction front with
  | nil => rfl
  | cons index front ih => simp only [List.cons_append, follow, ih]

/-- Nothing is found behind nothing. -/
theorem follow_none (store : Store) (below : List Nat) : store.follow none below = none := by
  induction below with
  | nil => rfl
  | cons index below ih =>
      rw [follow, ih]
      rfl

end Store

namespace Done

variable {store : Store} {cell : Cell}

theorem put_of_fixed {owner : Slot} (hcell : store.cell? owner = some cell)
    (hfixed : cell.frame.isMutable = false) (copied : Frame → Frame) (index : Nat) (new : Slot)
    (stop : Option Stop) : put copied index new stop store owner =
      ⟨store ++ [⟨copied cell.frame, cell.slots.set index new⟩], .object store.length, true, stop⟩ := by
  cases owner with
  | atom value => cases hcell
  | object address =>
      have hcell : store[address]? = some cell := hcell
      simp [put, hcell, hfixed]

theorem put_of_mutable {address : Nat} (hcell : store[address]? = some cell)
    (hmutable : cell.frame.isMutable = true) (copied : Frame → Frame) (index : Nat) (new : Slot)
    (stop : Option Stop) : put copied index new stop store (.object address) =
      ⟨store.set address ⟨cell.frame, cell.slots.set index new⟩, .object address, false, stop⟩ := by
  simp [put, hcell, hmutable]

end Done

theorem Evaluator.copies?_spec {evaluator : Evaluator} {frame : Frame} {copied : Frame → Frame}
    (h : evaluator.copies? frame = some copied) (hfixed : frame.isMutable = false) :
    evaluator.copies? (copied frame) = some copied ∧ (copied frame).isMutable = false ∧
      (copied frame = frame ∨ frame.isTuple = true ∧ copied frame = Done.tupleFrame) := by
  have hplain : Done.tupleFrame.isMutable = false := rfl
  cases evaluator with
  | record =>
      cases frame with
      | box => cases hfixed
      | record head names =>
          cases h
          exact ⟨rfl, hfixed, .inl rfl⟩
      | _ => cases h
  | sequence =>
      cases frame with
      | sequence kind derived =>
          cases kind with
          | tuple =>
              cases h
              exact ⟨rfl, hplain, .inr ⟨rfl, rfl⟩⟩
          | list | deque => cases hfixed
          | set | frozenset => cases h
      | record head names =>
          by_cases htuple : head.isTuple = true
          · rw [copies?, if_pos htuple] at h
            cases h
            exact ⟨rfl, hplain, .inr ⟨htuple, rfl⟩⟩
          · rw [copies?, if_neg htuple] at h
            cases h
      | _ => cases h
  | reference =>
      cases frame with
      | box => cases hfixed
      | _ => cases h
  | optional | scalar | mapping => cases frame <;> cases h

namespace Grips

variable {grips later : Grips} {seat other : Seat} {grip : Grip} {writable : Bool}

/-! ## Coherent handles -/

/-- Whether what is written to a seat arrives somewhere, below a root that can be written or not. -/
def Opens (writable : Bool) (base : Option (Nat × Nat)) : Bool :=
  base.isSome || writable

structure OwnedBy (grips : Grips) (writable : Bool) (base : Option (Nat × Nat)) (index : Nat)
    (below : List Nat) (grip owner : Grip) (cell : Cell) (copied : Frame → Frame) : Prop where
  live : grips.grip? ⟨base, below⟩ = some owner
  found : grips.store.cell? owner.slot = some cell
  fixed : cell.frame.isMutable = false
  copies : owner.evaluator.copies? cell.frame = some copied
  setter : grip.setter = if Opens writable base then .exchange copied index else .readOnly

/-- What a handle at the base of a seat does with a new value. -/
def outermost (writable : Bool) : Option (Nat × Nat) → Setter
  | none => if writable then .scratch else .readOnly
  | some (address, index) => .assign address index

/-- Handles hold what their slots hold, and pass what is written on to where those are. -/
structure Coherent (grips : Grips) (writable : Bool) : Prop where
  root : (grips.grip? .root).isSome = true
  holds : ∀ seat grip, grips.grip? seat = some grip → grips.seek seat = some grip.slot
  bases : ∀ base grip, grips.grip? ⟨base, []⟩ = some grip → grip.setter = outermost writable base
  owned : ∀ base index below grip, grips.grip? ⟨base, index :: below⟩ = some grip →
    ∃ owner cell copied, grips.OwnedBy writable base index below grip owner cell copied

theorem seek_part (grips : Grips) (seat : Seat) (index : Nat) :
    grips.seek (seat.part index) = (grips.seek seat).bind fun slot => grips.store.inner? slot index :=
  rfl

/-- What a part of an object that cannot be changed holds is in the slot of the object. -/
theorem seek_part_iff {owner slot : Slot} {cell : Cell} {index : Nat} (howner : grips.seek seat = some owner)
    (hcell : grips.store.cell? owner = some cell) (hfixed : cell.frame.isMutable = false) :
    grips.seek (seat.part index) = some slot ↔ cell.slots[index]? = some slot := by
  rw [seek_part, howner, Option.bind_some, Store.inner?_eq_some_iff]
  constructor
  · rintro ⟨found, hfound, -, hslot⟩
    rw [hcell] at hfound
    cases hfound
    exact hslot
  · intro hslot
    exact ⟨cell, hcell, hfixed, hslot⟩

/-- A handle can be written if it is below an object that can be changed or a root that can be written. -/
theorem Coherent.mode_eq_readOnly_iff (h : grips.Coherent writable) (hgrip : grips.grip? seat = some grip) :
    grip.setter.mode = .readOnly ↔ Opens writable seat.base = false := by
  obtain ⟨base, below⟩ := seat
  cases below with
  | nil =>
      rw [h.bases base grip hgrip]
      cases base with
      | none => cases writable <;> decide
      | some slots => simp [outermost, Setter.mode, Opens]
  | cons index below =>
      obtain ⟨owner, cell, copied, howned⟩ := h.owned base index below grip hgrip
      rw [howned.setter]
      cases Opens writable base <;> simp [Setter.mode]

/-! ## Where nothing changes -/

/-- Slots that are neither inside nor on the way, in handles whose base holds what it did. -/
theorem seek_of_grows (hgrows : grips.store.Grows later.store) {slot : Slot}
    (hbase : ∀ slot, grips.base? seat.base = some slot → later.base? seat.base = some slot)
    (hseek : grips.seek seat = some slot) : later.seek seat = some slot := by
  have hlast := hgrows.follow hseek
  unfold seek
  cases hstart : grips.base? seat.base with
  | some start => rwa [hbase start hstart, ← hstart]
  | none =>
      rw [hstart, Store.follow_none] at hlast
      cases hlast

/-- What is inside a seat that holds what it did holds what it did. -/
theorem seek_of_over {outer inner : Seat} {slot : Slot} (hover : outer.Over inner)
    (hgrows : grips.store.Grows later.store)
    (hkept : ∀ held, grips.seek outer = some held → later.seek outer = some held)
    (hseek : grips.seek inner = some slot) : later.seek inner = some slot := by
  obtain ⟨hbase, front, hfront⟩ := hover
  have hway (grips : Grips) : grips.seek inner = grips.store.follow (grips.seek outer) front := by
    unfold seek
    rw [← Store.follow_append, hfront, hbase]
  rw [hway] at hseek ⊢
  cases hstart : grips.seek outer with
  | none =>
      rw [hstart, Store.follow_none] at hseek
      cases hseek
  | some held =>
      rw [hstart] at hseek
      rw [hkept held hstart]
      exact hgrows.follow hseek

theorem base?_root (h : grips.grip? .root = later.grip? .root) : grips.base? none = later.base? none := by
  simp only [base?, h]

/-- A slot of an object that can be changed holds what it did unless it is the one that is written. -/
theorem base?_of_keeps {slots : Nat × Nat} (hframe : grips.store.Grows later.store)
    (hslot : ∀ cell new : Cell, grips.store[slots.1]? = some cell → later.store[slots.1]? = some new →
      cell.frame.isMutable = true → new.slots[slots.2]? = cell.slots[slots.2]?) (slot : Slot)
    (h : grips.base? (some slots) = some slot) : later.base? (some slots) = some slot := by
  simp only [base?, Option.bind_eq_some_iff, Option.filter_eq_some_iff] at h ⊢
  obtain ⟨cell, ⟨hcell, hmutable⟩, hheld⟩ := h
  obtain ⟨new, hnew, hsame, -, -⟩ := hframe _ _ hcell
  exact ⟨new, ⟨hnew, hsame ▸ hmutable⟩, (hslot cell new hcell hnew hmutable).trans hheld⟩

theorem seek_hold (hne : seat ≠ .root) (slot : Slot) (other : Seat) :
    (grips.hold seat slot).seek other = grips.seek other := by
  have hroot : (grips.hold seat slot).grip? .root = grips.grip? .root := if_neg (Ne.symm hne)
  unfold seek
  cases other.base with
  | none => rw [base?_root hroot]; rfl
  | some slots => rfl

theorem seek_clear (seat other : Seat) : (grips.clear seat).seek other = grips.seek other := by
  have hroot : (grips.clear seat).grip? .root = grips.grip? .root := by
    apply if_neg
    rintro ⟨hover, hne⟩
    exact hne (Seat.over_base_iff.1 hover).symm
  unfold seek
  cases other.base with
  | none => rw [base?_root hroot]; rfl
  | some slots => rfl

/-! ## A write through handles -/

/-- What a write to a seat does to an object on the way to it: it is exchanged for a copy. -/
structure Exchanges (before after : Grips) (outer : Seat) (grip : Grip) (cell : Cell)
    (copied : Frame → Frame) (slot : Slot) (new : Cell) : Prop where
  live : after.grip? outer = some { grip with slot := slot }
  seek : after.seek outer = some slot
  found : after.store.cell? slot = some new
  frame : new.frame = copied cell.frame
  width : new.slots.length = cell.slots.length

structure Writes (before after : Grips) (seat : Seat) (slot : Slot) : Prop where
  grows : before.store.Grows after.store
  seek : after.seek seat = some slot
  live : after.grip? seat = (before.grip? seat).map fun grip => { grip with slot := slot }
  aside : ∀ other held, ¬other.Over seat → ¬seat.Over other → before.seek other = some held →
    after.seek other = some held
  others : ∀ other, ¬other.Over seat → after.grip? other = before.grip? other
  owners : ∀ outer, outer.Over seat → outer ≠ seat → ∀ grip cell copied,
    before.grip? outer = some grip → before.store.cell? grip.slot = some cell →
    cell.frame.isMutable = false → grip.evaluator.copies? cell.frame = some copied →
    ∃ last new, Exchanges before after outer grip cell copied last new

def add (grips : Grips) (cell : Cell) : Grips :=
  { grips with store := grips.store ++ [cell] }

theorem seek_add (cell : Cell) {slot : Slot} (h : grips.seek seat = some slot) :
    (grips.add cell).seek seat = some slot := by
  have hgrows : grips.store.Grows (grips.add cell).store := Store.grows_append grips.store cell
  refine seek_of_grows hgrows (fun slot hslot => ?_) h
  cases hbase : seat.base with
  | none =>
      rw [hbase] at hslot
      exact hslot
  | some slots =>
      rw [hbase] at hslot
      refine base?_of_keeps hgrows (fun old new hold hnew _ => ?_) slot hslot
      have hlt := (List.getElem?_eq_some_iff.1 hold).1
      have hnew : (grips.store ++ [cell])[slots.1]? = some new := hnew
      rw [List.getElem?_append_left hlt, hold] at hnew
      cases hnew
      rfl

theorem Coherent.add (h : grips.Coherent writable) (cell : Cell) : (grips.add cell).Coherent writable where
  root := h.root
  holds seat grip hgrip := seek_add cell (h.holds seat grip hgrip)
  bases := h.bases
  owned base index below grip hgrip := by
    obtain ⟨owner, old, copied, howned⟩ := h.owned base index below grip hgrip
    have hfound := (Store.grows_append grips.store cell).cell? howned.found howned.fixed
    exact ⟨owner, old, copied, { howned with found := hfound }⟩

theorem writes_outermost {store : Store} {base : Option (Nat × Nat)} {new : Slot}
    (hgrows : grips.store.Grows store)
    (hbase : ({ grips with store := store }.hold ⟨base, []⟩ new).base? base = some new)
    (haside : ∀ other, other ≠ base → ∀ slot, grips.base? other = some slot →
      ({ grips with store := store }.hold ⟨base, []⟩ new).base? other = some slot) :
    Writes grips ({ grips with store := store }.hold ⟨base, []⟩ new) ⟨base, []⟩ new where
  grows := hgrows
  seek := hbase
  live := if_pos rfl
  aside other held hover hunder hseek := by
    have hne : other.base ≠ base := fun hsame => hunder ⟨hsame.symm, List.nil_suffix⟩
    exact seek_of_grows hgrows (haside other.base hne) hseek
  others other hover := by
    have hne : other ≠ ⟨base, []⟩ := by
      rintro rfl
      exact hover (Seat.Over.refl _)
    exact if_neg hne
  owners outer hover hne := absurd (Seat.over_base_iff.1 hover) hne

theorem writes_root {new : Slot} (hgrip : grips.grip? .root = some grip) :
    Writes grips (grips.hold .root new) .root new := by
  refine writes_outermost (.refl grips.store) ?_ ?_
  · simp [base?, hold, Seat.root] at hgrip ⊢
    simp [hgrip]
  · intro other hother slot hslot
    cases other with
    | none => exact absurd rfl hother
    | some slots => exact hslot

theorem writes_assigned {slots : Nat × Nat} {cell : Cell} {new : Slot}
    (hcell : grips.store[slots.1]? = some cell) (hmutable : cell.frame.isMutable = true)
    (hindex : slots.2 < cell.slots.length) :
    Writes grips ({ grips with store := grips.store.set slots.1 ⟨cell.frame, cell.slots.set slots.2 new⟩ }.hold
      ⟨some slots, []⟩ new) ⟨some slots, []⟩ new := by
  have hgrows := Store.grows_set hcell hmutable slots.2 new
  have hlt := (List.getElem?_eq_some_iff.1 hcell).1
  refine writes_outermost hgrows ?_ ?_
  · simp only [base?, hold, List.getElem?_set_self hlt, Option.filter, hmutable, if_true, Option.bind_some]
    exact List.getElem?_set_self hindex
  · intro other hother slot hslot
    cases other with
    | none => exact hslot
    | some others =>
        refine base?_of_keeps hgrows (fun old last hold hlast _ => ?_) slot hslot
        have hlast : (grips.store.set slots.1 ⟨cell.frame, cell.slots.set slots.2 new⟩)[others.1]? = some last :=
          hlast
        by_cases haddress : slots.1 = others.1
        · have hne : slots.2 ≠ others.2 := fun hindex =>
            hother (congrArg some (Prod.ext haddress.symm hindex.symm))
          rw [← haddress, List.getElem?_set_self hlt] at hlast
          rw [← haddress, hcell] at hold
          cases hlast
          cases hold
          exact List.getElem?_set_ne hne
        · rw [List.getElem?_set_ne haddress, hold] at hlast
          cases hlast
          rfl

theorem Writes.exchanged {base : Option (Nat × Nat)} {index : Nat} {below : List Nat} {owner : Grip}
    {cell : Cell} {copied : Frame → Frame} {new : Slot}
    (howned : grips.OwnedBy writable base index below grip owner cell copied)
    (hseek : grips.seek ⟨base, index :: below⟩ = some grip.slot)
    (howner : grips.seek ⟨base, below⟩ = some owner.slot)
    (h : Writes (grips.add ⟨copied cell.frame, cell.slots.set index new⟩) later ⟨base, below⟩
      (.object grips.store.length)) :
    Writes grips (later.hold ⟨base, index :: below⟩ new) ⟨base, index :: below⟩ new := by
  let copy : Cell := ⟨copied cell.frame, cell.slots.set index new⟩
  have hfirst : grips.store.Grows (grips.add copy).store := Store.grows_append grips.store copy
  have hgrows := hfirst.trans h.grows
  have hcopied := Evaluator.copies?_spec howned.copies howned.fixed
  have hroot : (⟨base, index :: below⟩ : Seat) ≠ .root := Seat.part_ne_root ⟨base, below⟩ index
  have hcopy : later.store.cell? (.object grips.store.length) = some copy :=
    h.grows.cell? List.getElem?_concat_length hcopied.2.1
  -- a slot of the owner as it was, and as it is in the copy
  have hold (i : Nat) (slot : Slot) : grips.seek ⟨base, i :: below⟩ = some slot → cell.slots[i]? = some slot :=
    (seek_part_iff howner howned.found howned.fixed).1
  have hnew (i : Nat) (slot : Slot) : copy.slots[i]? = some slot → later.seek ⟨base, i :: below⟩ = some slot :=
    (seek_part_iff h.seek hcopy hcopied.2.1).2
  have hindex : index < cell.slots.length := (List.getElem?_eq_some_iff.1 (hold index _ hseek)).1
  have hover (other : Seat) (hother : other.Over ⟨base, below⟩) : other.Over ⟨base, index :: below⟩ :=
    hother.trans (Seat.over_part ⟨base, below⟩ index)
  constructor
  case grows => exact hgrows
  case seek =>
    rw [seek_hold hroot]
    exact hnew index new (List.getElem?_set_self hindex)
  case live =>
    have hsame := h.others ⟨base, index :: below⟩ (Seat.not_part_over ⟨base, below⟩ index)
    have hheld : (later.hold ⟨base, index :: below⟩ new).grip? ⟨base, index :: below⟩ =
        (later.grip? ⟨base, index :: below⟩).map fun grip => { grip with slot := new } := if_pos rfl
    rw [hheld, hsame]
    rfl
  case aside =>
    intro other held hnot hunder hother
    rw [seek_hold hroot]
    by_cases hinside : Seat.Over ⟨base, below⟩ other
    · have hne : other ≠ ⟨base, below⟩ := by
        rintro rfl
        exact hnot (hover _ (.refl _))
      obtain ⟨i, hi⟩ := hinside.exists_part hne
      have hindex : index ≠ i := by
        rintro rfl
        exact hunder hi
      refine seek_of_over hi hgrows (fun slot hslot => hnew i slot ?_) hother
      rw [← hold i slot hslot]
      exact List.getElem?_set_ne hindex
    · exact h.aside other held (fun hother => hnot (hover other hother)) hinside (seek_add copy hother)
  case others =>
    intro other hnot
    have hne : other ≠ ⟨base, index :: below⟩ := by
      rintro rfl
      exact hnot (.refl _)
    have hheld : (later.hold ⟨base, index :: below⟩ new).grip? other = later.grip? other := if_neg hne
    rw [hheld, h.others other fun hother => hnot (hover other hother)]
    rfl
  case owners =>
    intro outer houter hne grip' cell' copied' hgrip' hcell' hfixed' hcopies'
    have hheld : (later.hold ⟨base, index :: below⟩ new).grip? outer = later.grip? outer := if_neg hne
    have habove : outer.Over ⟨base, below⟩ := houter.above hne
    by_cases hsame : outer = ⟨base, below⟩
    · subst hsame
      rw [howned.live] at hgrip'
      cases hgrip'
      rw [howned.found] at hcell'
      cases hcell'
      rw [howned.copies] at hcopies'
      cases hcopies'
      have hlive : later.grip? ⟨base, below⟩ = some { owner with slot := .object grips.store.length } := by
        rw [h.live]
        exact congrArg (Option.map _) howned.live
      exact ⟨_, copy, hheld.trans hlive, (seek_hold hroot new _).trans h.seek, hcopy, rfl, List.length_set⟩
    · obtain ⟨last, final, hlast⟩ := h.owners outer habove hsame grip' cell' copied' hgrip'
        (hfirst.cell? hcell' hfixed') hfixed' hcopies'
      exact ⟨last, final, hheld.trans hlast.live, (seek_hold hroot new _).trans hlast.seek, hlast.found,
        hlast.frame, hlast.width⟩

/-- Every write to a handle whose seat opens arrives, whatever is on the way to its base. -/
theorem Coherent.writes (h : grips.Coherent writable) {base : Option (Nat × Nat)} {below : List Nat}
    (hgrip : grips.grip? ⟨base, below⟩ = some grip) (hopens : Opens writable base = true) (new : Slot) :
    (put base below new grips).stop = none ∧
      Writes grips (put base below new grips).grips ⟨base, below⟩ new := by
  induction below generalizing grips grip new with
  | nil =>
      have hsetter := h.bases base grip hgrip
      have hheld := h.holds _ grip hgrip
      cases base with
      | none =>
          have hwritable : writable = true := hopens
          have hput : put none [] new grips = ⟨grips.hold .root new, none⟩ := by
            rw [put, hgrip]
            simp only [hsetter, hwritable, outermost, if_true]
            rfl
          rw [hput]
          exact ⟨rfl, writes_root hgrip⟩
      | some slots =>
          obtain ⟨cell, ⟨hcell, hmutable⟩, hslot⟩ :
              ∃ cell, (grips.store[slots.1]? = some cell ∧ cell.frame.isMutable = true) ∧
                cell.slots[slots.2]? = some grip.slot := by
            simpa only [seek, Store.follow, base?, Option.bind_eq_some_iff, Option.filter_eq_some_iff]
              using hheld
          have hindex : slots.2 < cell.slots.length := (List.getElem?_eq_some_iff.1 hslot).1
          have hput : put (some slots) [] new grips = ⟨{ grips with
              store := grips.store.set slots.1 ⟨cell.frame, cell.slots.set slots.2 new⟩ }.hold
                ⟨some slots, []⟩ new, none⟩ := by
            rw [put, hgrip]
            simp only [hsetter, outermost, Done.put_of_mutable hcell hmutable]
          rw [hput]
          exact ⟨rfl, writes_assigned hcell hmutable hindex⟩
  | cons index below ih =>
      obtain ⟨owner, cell, copied, howned⟩ := h.owned base index below grip hgrip
      have hsetter : grip.setter = .exchange copied index := by
        rw [howned.setter, hopens, if_pos rfl]
      obtain ⟨hstop, hpassed⟩ := ih (h.add ⟨copied cell.frame, cell.slots.set index new⟩) howned.live
        (.object grips.store.length)
      have hput : put base (index :: below) new grips =
          ⟨(put base below (.object grips.store.length)
            (grips.add ⟨copied cell.frame, cell.slots.set index new⟩)).grips.hold
              ⟨base, index :: below⟩ new, none⟩ := by
        unfold Grips.add at hstop
        rw [put, hgrip]
        simp only [hsetter, howned.live, Done.put_of_fixed howned.found howned.fixed, if_true, hstop]
        rfl
      rw [hput]
      exact ⟨rfl, hpassed.exchanged howned (h.holds _ grip hgrip) (h.holds _ owner howned.live)⟩

/-- Below a root that cannot be written, with nothing on the way that can be changed, no write arrives. -/
theorem Coherent.put_refused (h : grips.Coherent writable) {base : Option (Nat × Nat)} {below : List Nat}
    (hgrip : grips.grip? ⟨base, below⟩ = some grip) (hopens : Opens writable base = false) (new : Slot) :
    put base below new grips = ⟨grips, some (.refuse .notWritable)⟩ := by
  have hsetter : grip.setter = .readOnly := by
    have hmode := (h.mode_eq_readOnly_iff hgrip).2 hopens
    cases hcase : grip.setter <;> first | rfl | (rw [hcase] at hmode; cases hmode)
  cases below <;> (rw [put, hgrip]; simp only [hsetter])

end Grips

end RuleCheck
