import RuleCheck.Proofs.Object.Writing

/-!
# Writes through handles are not lost

Handles are made and written in any order.  Each holds what its slot holds, and in the end every slot of the content
of the root holds the last value that was written to it, or what it held before.  A slot stays where it is as long
as nothing on the way to it is itself overwritten by a value without parts.
-/

namespace RuleCheck

/-- What is held at a seat, apart from what is inside. -/
inductive Node where
  | atom (value : Value)
  /-- An object that cannot be changed, with the number of its slots. -/
  | fixed (frame : Frame) (width : Nat)
  /-- An object that can be changed, with the number of its slots. -/
  | assignable (address : Nat) (frame : Frame) (width : Nat)

namespace Node

def isFixed : Node → Bool
  | fixed .. => true
  | atom _ | assignable .. => false

/-- What is left of a node when something inside is written: a tuple that is gone through becomes a plain one. -/
inductive Stays : Node → Node → Prop
  | same (node : Node) : Stays node node
  | plain {frame : Frame} {width : Nat} (h : frame.isTuple = true) :
      Stays (.fixed frame width) (.fixed Done.tupleFrame width)

theorem Stays.trans {node middle last : Node} (h : node.Stays middle) (hlast : middle.Stays last) :
    node.Stays last := by
  cases h with
  | same => exact hlast
  | plain htuple =>
      cases hlast with
      | same => exact .plain htuple
      | plain => exact .plain htuple

def seat? (node : Node) (seat : Seat) (index : Nat) : Option Seat :=
  match node with
  | atom _ => none
  | fixed _ width => if index < width then some (seat.part index) else none
  | assignable address _ width => if index < width then some ⟨some (address, index), []⟩ else none

theorem exists_of_seat? {node : Node} {owner seat : Seat} {index : Nat}
    (h : node.seat? owner index = some seat) :
    (∃ frame width, node = .fixed frame width ∧ index < width ∧ seat = owner.part index) ∨
      ∃ address frame width, node = .assignable address frame width ∧ index < width ∧
        seat = ⟨some (address, index), []⟩ := by
  cases node with
  | atom value => cases h
  | fixed frame width =>
      obtain ⟨hindex, hseat⟩ := Option.ite_none_right_eq_some.1 h
      cases hseat
      exact .inl ⟨frame, width, rfl, hindex, rfl⟩
  | assignable address frame width =>
      obtain ⟨hindex, hseat⟩ := Option.ite_none_right_eq_some.1 h
      cases hseat
      exact .inr ⟨address, frame, width, rfl, hindex, rfl⟩

theorem Stays.seat?_eq {node last : Node} (h : node.Stays last) (seat : Seat) (index : Nat) :
    last.seat? seat index = node.seat? seat index := by
  cases h <;> rfl

end Node

/-- What a slot holds, apart from what is inside. -/
def Store.node? (store : Store) : Slot → Option Node
  | .atom value => some (.atom value)
  | .object address =>
    store[address]?.map fun cell =>
      if cell.frame.isMutable then .assignable address cell.frame cell.slots.length
      else .fixed cell.frame cell.slots.length

theorem Store.Grows.node? {store later : Store} (h : store.Grows later) {slot : Slot} {node : Node}
    (hnode : store.node? slot = some node) : later.node? slot = some node := by
  cases slot with
  | atom value => exact hnode
  | object address =>
      obtain ⟨cell, hcell, rfl⟩ := Option.map_eq_some_iff.1 hnode
      obtain ⟨new, hnew, hframe, hwidth, -⟩ := h address cell hcell
      simp only [Store.node?, hnew, hframe, hwidth, Option.map_some]

theorem Store.node?_of_fixed {store : Store} {slot : Slot} {cell : Cell}
    (hcell : store.cell? slot = some cell) (hfixed : cell.frame.isMutable = false) :
    store.node? slot = some (.fixed cell.frame cell.slots.length) := by
  cases slot with
  | atom value => cases hcell
  | object address =>
      have hcell : store[address]? = some cell := hcell
      simp [Store.node?, hcell, hfixed]

def Slot.Refers (store : Store) : Slot → Prop
  | .atom _ => True
  | .object address => address < store.length

def Store.Closed (store : Store) : Prop :=
  ∀ cell ∈ store, ∀ slot ∈ cell.slots, slot.Refers store

/-- A value that was written to a handle, and what the call raised. -/
structure HandleCall where
  seat : Seat
  value : Value
  stop : Option Stop

namespace Grips

variable {grips later first : Grips} {seat other outer : Seat} {grip : Grip} {writable : Bool}
  {calls : List HandleCall}

/-- What is held at a seat, apart from what is inside. -/
def look (grips : Grips) (seat : Seat) : Option Node :=
  (grips.seek seat).bind grips.store.node?

/-- The seat at the end of a path from the root, the innermost index first. -/
def locate (grips : Grips) : List Nat → Option Seat
  | [] => some .root
  | index :: path =>
    (grips.locate path).bind fun seat => (grips.look seat).bind fun node => node.seat? seat index

/-! ## Coherence is kept -/

theorem start_eq_some_iff {store : Store} {slot : Slot} {evaluator : Evaluator} :
    (start store slot evaluator writable).grip? seat = some grip ↔
      seat = .root ∧ grip = ⟨slot, outermost writable none, evaluator⟩ := by
  simp only [start, outermost, Option.ite_none_right_eq_some, Option.some.injEq, eq_comm (a := grip)]

theorem coherent_start (store : Store) (slot : Slot) (evaluator : Evaluator) (writable : Bool) :
    (start store slot evaluator writable).Coherent writable where
  root := rfl
  holds seat grip hgrip := by
    obtain ⟨rfl, rfl⟩ := start_eq_some_iff.1 hgrip
    rfl
  bases base grip hgrip := by
    obtain ⟨hroot, rfl⟩ := start_eq_some_iff.1 hgrip
    cases hroot
    rfl
  owned base index below grip hgrip := by
    obtain ⟨hroot, -⟩ := start_eq_some_iff.1 hgrip
    cases hroot

theorem Coherent.owner (h : grips.Coherent writable) (hgrip : grips.grip? seat = some grip)
    (hover : outer.Over seat) (hne : outer ≠ seat) :
    ∃ owner cell copied, grips.grip? outer = some owner ∧ grips.store.cell? owner.slot = some cell ∧
      cell.frame.isMutable = false ∧ owner.evaluator.copies? cell.frame = some copied := by
  obtain ⟨base, below⟩ := seat
  induction below generalizing grip with
  | nil => exact absurd (Seat.over_base_iff.1 hover) hne
  | cons index below ih =>
      obtain ⟨owner, cell, copied, howned⟩ := h.owned base index below grip hgrip
      have habove : outer.Over ⟨base, below⟩ := hover.above hne
      by_cases hsame : outer = ⟨base, below⟩
      · subst hsame
        exact ⟨owner, cell, copied, howned.live, howned.found, howned.fixed, howned.copies⟩
      · exact ih howned.live habove hsame

/-- After a write a handle has another slot at most, and it holds what its slot holds unless it is inside. -/
theorem Writes.grip_of_before {slot : Slot} (hwrites : Writes grips later seat slot)
    (h : grips.Coherent writable) (hlive : grips.grip? seat = some grip) {own : Grip}
    (hown : grips.grip? other = some own) :
    ∃ held, later.grip? other = some { own with slot := held } ∧
      (¬(seat.Over other ∧ other ≠ seat) → later.seek other = some held) := by
  by_cases hsame : other = seat
  · subst hsame
    exact ⟨slot, by rw [hwrites.live, hown]; rfl, fun _ => hwrites.seek⟩
  · by_cases hover : other.Over seat
    · obtain ⟨owner, cell, copied, howner, hcell, hfixed, hcopies⟩ := h.owner hlive hover hsame
      rw [hown] at howner
      cases howner
      obtain ⟨last, new, hlast⟩ := hwrites.owners other hover hsame own cell copied hown hcell hfixed hcopies
      exact ⟨last, hlast.live, fun _ => hlast.seek⟩
    · refine ⟨own.slot, (hwrites.others other hover).trans hown, fun hout => ?_⟩
      have hunder : ¬seat.Over other := fun hunder => hout ⟨hunder, hsame⟩
      exact hwrites.aside other own.slot hover hunder (h.holds other own hown)

theorem Writes.grip_of_after {slot : Slot} (hwrites : Writes grips later seat slot)
    (h : grips.Coherent writable) (hlive : grips.grip? seat = some grip) {new : Grip}
    (hnew : later.grip? other = some new) :
    ∃ own, grips.grip? other = some own ∧ new = { own with slot := new.slot } := by
  cases hown : grips.grip? other with
  | some own =>
      obtain ⟨held, hheld, -⟩ := hwrites.grip_of_before h hlive hown
      rw [hnew] at hheld
      cases hheld
      exact ⟨own, rfl, rfl⟩
  | none =>
      have hover : ¬other.Over seat := by
        intro hover
        by_cases hsame : other = seat
        · rw [hsame, hlive] at hown
          cases hown
        · obtain ⟨owner, -, -, howner, -⟩ := h.owner hlive hover hsame
          rw [hown] at howner
          cases howner
      rw [hwrites.others other hover, hown] at hnew
      cases hnew

theorem clear_eq_some_iff : (grips.clear seat).grip? other = some grip ↔
    ¬(seat.Over other ∧ other ≠ seat) ∧ grips.grip? other = some grip := by
  simp only [clear, Option.ite_none_left_eq_some]

/-- A write keeps handles coherent, if those inside what is written are given up. -/
theorem Writes.coherent {slot : Slot} (hwrites : Writes grips later seat slot) (h : grips.Coherent writable)
    (hlive : grips.grip? seat = some grip) : (later.clear seat).Coherent writable := by
  constructor
  case root =>
    obtain ⟨own, hown⟩ := Option.isSome_iff_exists.1 h.root
    obtain ⟨held, hheld, -⟩ := hwrites.grip_of_before h hlive hown
    have hroot : ¬(seat.Over .root ∧ Seat.root ≠ seat) := fun hinside =>
      hinside.2 (Seat.over_base_iff.1 hinside.1).symm
    exact Option.isSome_iff_exists.2 ⟨_, clear_eq_some_iff.2 ⟨hroot, hheld⟩⟩
  case holds =>
    intro other new hnew
    obtain ⟨hout, hnew⟩ := clear_eq_some_iff.1 hnew
    obtain ⟨own, hown, -⟩ := hwrites.grip_of_after h hlive hnew
    obtain ⟨held, hheld, hseek⟩ := hwrites.grip_of_before h hlive hown
    rw [hnew] at hheld
    cases hheld
    rw [seek_clear]
    exact hseek hout
  case bases =>
    intro base new hnew
    obtain ⟨-, hnew⟩ := clear_eq_some_iff.1 hnew
    obtain ⟨own, hown, hsame⟩ := hwrites.grip_of_after h hlive hnew
    rw [hsame]
    exact h.bases base own hown
  case owned =>
    intro base index below new hnew
    obtain ⟨hout, hnew⟩ := clear_eq_some_iff.1 hnew
    obtain ⟨own, hown, hsame⟩ := hwrites.grip_of_after h hlive hnew
    obtain ⟨owner, cell, copied, howned⟩ := h.owned base index below own hown
    have hinside (hover : seat.Over ⟨base, below⟩) : False := by
      refine hout ⟨hover.trans (Seat.over_part ⟨base, below⟩ index), ?_⟩
      rintro rfl
      exact Seat.not_part_over ⟨base, below⟩ index hover
    have hkept : ¬(seat.Over ⟨base, below⟩ ∧ (⟨base, below⟩ : Seat) ≠ seat) := fun h => hinside h.1
    have hsetter : new.setter = if Opens writable base then .exchange copied index else .readOnly := by
      rw [hsame]
      exact howned.setter
    by_cases hover : Seat.Over ⟨base, below⟩ seat
    · have hne : (⟨base, below⟩ : Seat) ≠ seat := fun hsame => hinside (hsame ▸ .refl _)
      obtain ⟨last, copy, hlast⟩ := hwrites.owners _ hover hne owner cell copied howned.live howned.found
        howned.fixed howned.copies
      have hcopied := Evaluator.copies?_spec howned.copies howned.fixed
      rw [← hlast.frame] at hcopied
      exact ⟨_, copy, copied, clear_eq_some_iff.2 ⟨hkept, hlast.live⟩, hlast.found, hcopied.2.1, hcopied.1,
        hsetter⟩
    · have hlive' : later.grip? ⟨base, below⟩ = some owner := (hwrites.others _ hover).trans howned.live
      exact ⟨owner, cell, copied, clear_eq_some_iff.2 ⟨hkept, hlive'⟩,
        hwrites.grows.cell? howned.found howned.fixed, howned.fixed, howned.copies, hsetter⟩

theorem place_eq_some_iff {own : Grip} : (grips.place seat grip).grip? other = some own ↔
    other = seat ∧ grip = own ∨ other ≠ seat ∧ ¬seat.Over other ∧ grips.grip? other = some own := by
  by_cases hsame : other = seat
  · simp [place, hsame]
  · simp [place, hsame, Option.ite_none_left_eq_some]

theorem seek_place (hne : seat ≠ .root) (grip : Grip) (other : Seat) :
    (grips.place seat grip).seek other = grips.seek other := by
  have hover : ¬seat.Over .root := fun hover => hne (Seat.over_base_iff.1 hover)
  have hroot : (grips.place seat grip).grip? .root = grips.grip? .root := by
    simp only [place, if_neg (Ne.symm hne), if_neg hover]
  unfold seek
  cases other.base with
  | none =>
      rw [base?_root hroot]
      rfl
  | some slots => rfl

/-- A new handle on a slot, with an owner that goes through the object with it, fits in with the others. -/
theorem Coherent.place (h : grips.Coherent writable) (hne : seat ≠ .root)
    (hseek : grips.seek seat = some grip.slot)
    (hbase : ∀ base, seat = ⟨base, []⟩ → grip.setter = outermost writable base)
    (howned : ∀ base index below, seat = ⟨base, index :: below⟩ →
      ∃ owner cell copied, grips.OwnedBy writable base index below grip owner cell copied) :
    (grips.place seat grip).Coherent writable := by
  constructor
  case root =>
    obtain ⟨root, hroot⟩ := Option.isSome_iff_exists.1 h.root
    have hover : ¬seat.Over .root := fun hover => hne (Seat.over_base_iff.1 hover)
    exact Option.isSome_iff_exists.2 ⟨root, place_eq_some_iff.2 (.inr ⟨Ne.symm hne, hover, hroot⟩)⟩
  case holds =>
    intro other own hown
    rw [seek_place hne]
    rcases place_eq_some_iff.1 hown with ⟨rfl, rfl⟩ | ⟨-, -, hown⟩
    · exact hseek
    · exact h.holds other own hown
  case bases =>
    intro base own hown
    rcases place_eq_some_iff.1 hown with ⟨hsame, rfl⟩ | ⟨-, -, hown⟩
    · exact hbase base hsame.symm
    · exact h.bases base own hown
  case owned =>
    intro base index below own hown
    -- the owner of a handle that is kept or new is kept itself
    have hkept (owner : Grip) (hout : ¬seat.Over ⟨base, below⟩)
        (howner : grips.grip? ⟨base, below⟩ = some owner) :
        (grips.place seat grip).grip? ⟨base, below⟩ = some owner := by
      have hne : (⟨base, below⟩ : Seat) ≠ seat := fun hsame => hout (hsame ▸ .refl _)
      exact place_eq_some_iff.2 (.inr ⟨hne, hout, howner⟩)
    rcases place_eq_some_iff.1 hown with ⟨hsame, rfl⟩ | ⟨-, hout, hown⟩
    · obtain ⟨owner, cell, copied, hnew⟩ := howned base index below hsame.symm
      have hover : ¬seat.Over ⟨base, below⟩ := hsame ▸ Seat.not_part_over ⟨base, below⟩ index
      exact ⟨owner, cell, copied, { hnew with live := hkept owner hover hnew.live }⟩
    · obtain ⟨owner, cell, copied, hold⟩ := h.owned base index below own hown
      have hover : ¬seat.Over ⟨base, below⟩ := fun hover =>
        hout (hover.trans (Seat.over_part ⟨base, below⟩ index))
      exact ⟨owner, cell, copied, { hold with live := hkept owner hover hold.live }⟩

def slotSeat (seat : Seat) (address index : Nat) (cell : Cell) : Seat :=
  if cell.frame.isMutable then ⟨some (address, index), []⟩ else seat.part index

def slotSetter (owner : Grip) (address index : Nat) (cell : Cell) (copied : Frame → Frame) : Setter :=
  if cell.frame.isMutable then .assign address index
  else if owner.setter.mode = .readOnly then .readOnly
  else .exchange copied index

theorem make_eq_some {index : Nat} {evaluator : Evaluator} (h : grips.make seat index evaluator = some later) :
    ∃ owner address cell copied slot, grips.grip? seat = some owner ∧ owner.slot = .object address ∧
      grips.store[address]? = some cell ∧ owner.evaluator.copies? cell.frame = some copied ∧
      cell.slots[index]? = some slot ∧
      later = grips.place (slotSeat seat address index cell)
        ⟨slot, slotSetter owner address index cell copied, evaluator⟩ := by
  unfold make at h
  cases howner : grips.grip? seat with
  | none => simp [howner] at h
  | some owner =>
      cases hslot : owner.slot with
      | atom value => simp [howner, hslot] at h
      | object address =>
          cases hcell : grips.store[address]? with
          | none => simp [howner, hslot, hcell] at h
          | some cell =>
              simp only [howner, hslot, hcell] at h
              split at h
              · rename_i copied slot hcopies hheld
                refine ⟨owner, address, cell, copied, slot, rfl, hslot, hcell, hcopies, hheld, ?_⟩
                by_cases hmutable : cell.frame.isMutable = true
                · rw [if_pos hmutable, Option.some.injEq] at h
                  rw [slotSeat, slotSetter, if_pos hmutable, if_pos hmutable, h]
                · rw [if_neg hmutable, Option.some.injEq] at h
                  rw [slotSeat, slotSetter, if_neg hmutable, if_neg hmutable, h]
              · cases h

theorem slotSeat_ne_root (seat : Seat) (address index : Nat) (cell : Cell) :
    slotSeat seat address index cell ≠ .root := by
  unfold slotSeat
  split
  · simp [Seat.root]
  · exact seat.part_ne_root index

/-- New handles change nothing that is held. -/
theorem look_make {index : Nat} {evaluator : Evaluator} (h : grips.make seat index evaluator = some later)
    (other : Seat) : later.look other = grips.look other := by
  obtain ⟨owner, address, cell, copied, slot, -, -, -, -, -, rfl⟩ := make_eq_some h
  unfold look
  rw [seek_place (slotSeat_ne_root seat address index cell)]
  rfl

theorem Coherent.make (h : grips.Coherent writable) {index : Nat} {evaluator : Evaluator}
    (hmake : grips.make seat index evaluator = some later) : later.Coherent writable := by
  obtain ⟨owner, address, cell, copied, slot, howner, hslot, hcell, hcopies, hheld, rfl⟩ := make_eq_some hmake
  have hseek : grips.seek seat = some (.object address) := by
    rw [h.holds seat owner howner, hslot]
  by_cases hmutable : cell.frame.isMutable = true
  · have hseat : slotSeat seat address index cell = ⟨some (address, index), []⟩ := if_pos hmutable
    have hsetter : slotSetter owner address index cell copied = .assign address index := if_pos hmutable
    rw [hseat, hsetter]
    refine h.place (fun hsame => nomatch hsame) ?_ ?_ ?_
    · simp only [seek, Store.follow, base?, hcell, Option.filter, hmutable, if_true, Option.bind_some, hheld]
    · intro base hsame
      cases hsame
      rfl
    · intro base index below hsame
      cases hsame
  · have hfixed : cell.frame.isMutable = false := by simpa using hmutable
    have hseat : slotSeat seat address index cell = seat.part index := if_neg hmutable
    have hsetter : slotSetter owner address index cell copied =
        if Opens writable seat.base then .exchange copied index else .readOnly := by
      have hmode := h.mode_eq_readOnly_iff howner
      rw [slotSetter, if_neg hmutable]
      cases hopens : Opens writable seat.base with
      | true =>
          have hopen : owner.setter.mode ≠ .readOnly := fun hread => by simp [hmode.1 hread] at hopens
          rw [if_neg hopen]
          rfl
      | false =>
          rw [if_pos (hmode.2 hopens)]
          rfl
    rw [hseat]
    refine h.place (seat.part_ne_root index) ?_ ?_ ?_
    · exact (seek_part_iff hseek hcell hfixed).2 hheld
    · intro base hsame
      cases hsame
    · intro base own below hsame
      cases hsame
      exact ⟨owner, cell, copied, howner, by rw [hslot]; exact hcell, hfixed, hcopies, hsetter⟩

/-! ## What one call changes -/

theorem Coherent.set_of_opens (h : grips.Coherent writable) (hlive : grips.grip? seat = some grip)
    (hopens : Opens writable seat.base = true) (value : Value) :
    ∃ later, grips.set seat value = ⟨later.clear seat, none⟩ ∧ Writes grips later seat (.atom value) := by
  obtain ⟨hstop, hwrites⟩ := h.writes hlive hopens (.atom value)
  refine ⟨(grips.put seat.base seat.below (.atom value)).grips, ?_, hwrites⟩
  simp only [set, hstop]

theorem Coherent.set_of_not_opens (h : grips.Coherent writable) (hlive : grips.grip? seat = some grip)
    (hopens : Opens writable seat.base = false) (value : Value) :
    grips.set seat value = ⟨grips, some (.refuse .notWritable)⟩ := by
  simp only [set, h.put_refused hlive hopens]

theorem look_clear (seat other : Seat) : (grips.clear seat).look other = grips.look other := by
  unfold look
  rw [seek_clear]
  rfl

theorem Writes.look_here {value : Value} (hwrites : Writes grips later seat (.atom value)) :
    later.look seat = some (.atom value) := by
  rw [look, hwrites.seek]
  rfl

theorem Writes.look_aside {slot : Slot} (hwrites : Writes grips later seat slot) (hover : ¬other.Over seat)
    (hunder : ¬seat.Over other) {node : Node} (hnode : grips.look other = some node) :
    later.look other = some node := by
  obtain ⟨held, hheld, hlook⟩ := Option.bind_eq_some_iff.1 hnode
  rw [look, hwrites.aside other held hover hunder hheld]
  exact hwrites.grows.node? hlook

/-- On the way to what is written are objects that stay what they are, but for tuples that turn plain. -/
theorem Writes.look_owner {slot : Slot} (hwrites : Writes grips later seat slot) (h : grips.Coherent writable)
    (hlive : grips.grip? seat = some grip) (hover : outer.Over seat) (hne : outer ≠ seat) :
    ∃ node last, grips.look outer = some node ∧ later.look outer = some last ∧ node.Stays last := by
  obtain ⟨owner, cell, copied, howner, hcell, hfixed, hcopies⟩ := h.owner hlive hover hne
  obtain ⟨held, new, hnew⟩ := hwrites.owners outer hover hne owner cell copied howner hcell hfixed hcopies
  obtain ⟨-, hcopied, hframe⟩ := Evaluator.copies?_spec hcopies hfixed
  have hnewFixed : new.frame.isMutable = false := by
    rw [hnew.frame]
    exact hcopied
  refine ⟨.fixed cell.frame cell.slots.length, .fixed new.frame new.slots.length, ?_, ?_, ?_⟩
  · rw [look, h.holds outer owner howner]
    exact Store.node?_of_fixed hcell hfixed
  · rw [look, hnew.seek]
    exact Store.node?_of_fixed hnew.found hnewFixed
  · rw [hnew.frame, hnew.width]
    rcases hframe with hsame | ⟨htuple, hplain⟩
    · rw [hsame]
      exact .same _
    · rw [hplain]
      exact .plain htuple

/-! ## Runs -/

/-- Handles are made and written in any order; the calls are listed with the latest one first. -/
inductive Runs (first : Grips) : List HandleCall → Grips → Prop
  | first : Runs first [] first
  | make {calls : List HandleCall} {grips later : Grips} (h : Runs first calls grips) {seat : Seat}
      {index : Nat} {evaluator : Evaluator} (hmake : grips.make seat index evaluator = some later) :
      Runs first calls later
  | set {calls : List HandleCall} {grips : Grips} (h : Runs first calls grips) {seat : Seat} {grip : Grip}
      (hlive : grips.grip? seat = some grip) {value : Value} (hvalue : value.frame? = none) :
      Runs first (⟨seat, value, (grips.set seat value).stop⟩ :: calls) (grips.set seat value).grips

def written (calls : List HandleCall) (seat : Seat) : Option Value :=
  (calls.find? fun call => call.stop.isNone && call.seat == seat).map HandleCall.value

theorem written_of_refused {value : Value} {stop : Stop} :
    written (⟨seat, value, some stop⟩ :: calls) other = written calls other := by
  simp [written]

theorem written_of_accepted {value : Value} : written (⟨seat, value, none⟩ :: calls) other =
    if seat = other then some value else written calls other := by
  by_cases hsame : seat = other
  · simp [written, hsame]
  · simp [written, hsame]

theorem Runs.coherent (h : Runs first calls grips) (hfirst : first.Coherent writable) :
    grips.Coherent writable := by
  induction h with
  | first => exact hfirst
  | make _ hmake ih => exact ih.make hmake
  | @set calls grips _ seat grip hlive value _ ih =>
      cases hopens : Opens writable seat.base with
      | true =>
          obtain ⟨later, hset, hwrites⟩ := ih.set_of_opens hlive hopens value
          rw [hset]
          exact hwrites.coherent ih hlive
      | false =>
          rw [ih.set_of_not_opens hlive hopens value]
          exact ih

/-- A seat holds what was written to it last, or what it held, if nothing on the way to it was written. -/
theorem Runs.look (h : Runs first calls grips) (hfirst : first.Coherent writable) {node : Node}
    (hnode : first.look seat = some node)
    (hway : ∀ outer, outer.Over seat → outer ≠ seat → written calls outer = none) :
    ∃ last, grips.look seat = some last ∧ ((written calls seat).elim node .atom).Stays last := by
  induction h with
  | first => exact ⟨node, hnode, .same node⟩
  | make _ hmake ih =>
      rw [look_make hmake]
      exact ih hway
  | @set calls grips hruns own grip hlive value _ ih =>
      have hcoherent := hruns.coherent hfirst
      cases hopens : Opens writable own.base with
      | false =>
          rw [hcoherent.set_of_not_opens hlive hopens value] at hway ⊢
          simp only [written_of_refused] at hway ⊢
          exact ih hway
      | true =>
          obtain ⟨later, hset, hwrites⟩ := hcoherent.set_of_opens hlive hopens value
          rw [hset] at hway ⊢
          simp only [written_of_accepted] at hway ⊢
          rw [look_clear]
          have hearlier : ∀ outer, outer.Over seat → outer ≠ seat → written calls outer = none := by
            intro outer hover hne
            have hnone := hway outer hover hne
            split at hnone
            · cases hnone
            · exact hnone
          by_cases hsame : own = seat
          · subst hsame
            rw [if_pos rfl]
            exact ⟨.atom value, hwrites.look_here, .same _⟩
          · have hunder : ¬own.Over seat := by
              intro hover
              have hnone := hway own hover hsame
              rw [if_pos rfl] at hnone
              cases hnone
            rw [if_neg hsame]
            obtain ⟨last, hlast, hstays⟩ := ih hearlier
            by_cases hover : seat.Over own
            · obtain ⟨middle, final, hmiddle, hfinal, hboth⟩ :=
                hwrites.look_owner hcoherent hlive hover (Ne.symm hsame)
              rw [hlast] at hmiddle
              cases hmiddle
              exact ⟨final, hfinal, hstays.trans hboth⟩
            · exact ⟨last, hwrites.look_aside hover hunder hlast, hstays⟩

/-! ## Paths from the root -/

theorem ne_cons_of_suffix {front path : List Nat} (h : front <:+ path) (index : Nat) : front ≠ index :: path := by
  rintro rfl
  have hlength := h.length_le
  simp only [List.length_cons] at hlength
  omega

def WayOpen (first : Grips) (calls : List HandleCall) (path : List Nat) : Prop :=
  ∀ outer, outer <:+ path → outer ≠ path → ∀ seat, first.locate outer = some seat → written calls seat = none

theorem WayOpen.of_suffix {path outer : List Nat} (h : WayOpen first calls path) (hsuffix : outer <:+ path) :
    WayOpen first calls outer := by
  intro inner hinner hne
  apply h inner (hinner.trans hsuffix)
  rintro rfl
  exact hne (hinner.eq_of_length_le hsuffix.length_le)

theorem wayOpen_cons_iff {path : List Nat} {index : Nat} (hseat : first.locate path = some seat) :
    WayOpen first calls (index :: path) ↔ WayOpen first calls path ∧ written calls seat = none := by
  constructor
  · intro h
    refine ⟨h.of_suffix (List.suffix_cons index path), ?_⟩
    exact h path (List.suffix_cons index path) (ne_cons_of_suffix (List.suffix_refl path) index) seat hseat
  · rintro ⟨h, hwritten⟩ outer hsuffix hne other hother
    have habove : outer <:+ path := (List.suffix_cons_iff.1 hsuffix).resolve_left hne
    by_cases hsame : outer = path
    · subst hsame
      rw [hseat] at hother
      cases hother
      exact hwritten
    · exact h outer habove hsame other hother

theorem locate_cons {path : List Nat} {index : Nat} : grips.locate (index :: path) = some seat ↔
    ∃ owner node, grips.locate path = some owner ∧ grips.look owner = some node ∧
      node.seat? owner index = some seat := by
  simp only [locate, Option.bind_eq_some_iff]
  constructor
  · rintro ⟨owner, howner, node, hnode, hseat⟩
    exact ⟨owner, node, howner, hnode, hseat⟩
  · rintro ⟨owner, node, howner, hnode, hseat⟩
    exact ⟨owner, howner, node, hnode, hseat⟩

/-- What is on the way to the seat at the end of a path is the seat of a shorter path. -/
theorem exists_locate_of_over {path : List Nat} (h : grips.locate path = some seat) (hover : outer.Over seat)
    (hne : outer ≠ seat) : ∃ front, front <:+ path ∧ front ≠ path ∧ grips.locate front = some outer := by
  induction path generalizing seat with
  | nil =>
      cases h
      exact absurd (Seat.over_base_iff.1 hover) hne
  | cons index path ih =>
      obtain ⟨owner, node, howner, -, hseat⟩ := locate_cons.1 h
      have hpath := ne_cons_of_suffix (List.suffix_refl path) index
      rcases Node.exists_of_seat? hseat with ⟨frame, width, -, -, rfl⟩ | ⟨address, frame, width, -, -, rfl⟩
      · have habove := hover.above hne
        by_cases hsame : outer = owner
        · exact ⟨path, List.suffix_cons index path, hpath, hsame ▸ howner⟩
        · obtain ⟨front, hsuffix, hshort, hfront⟩ := ih howner habove hsame
          refine ⟨front, hsuffix.trans (List.suffix_cons index path), ?_, hfront⟩
          exact ne_cons_of_suffix hsuffix index
      · exact absurd (Seat.over_base_iff.1 hover) hne

theorem WayOpen.written_eq_none {path : List Nat} (h : WayOpen first calls path)
    (hseat : first.locate path = some seat) (hover : outer.Over seat) (hne : outer ≠ seat) :
    written calls outer = none := by
  obtain ⟨front, hsuffix, hshort, hfront⟩ := exists_locate_of_over hseat hover hne
  exact h front hsuffix hshort outer hfront

/-- A path leads where it did, as long as nothing on the way is written. -/
theorem Runs.locate (h : Runs first calls grips) (hfirst : first.Coherent writable) {path : List Nat}
    (hseat : first.locate path = some seat) (hway : WayOpen first calls path) :
    grips.locate path = some seat := by
  induction path generalizing seat with
  | nil => exact hseat
  | cons index path ih =>
      obtain ⟨owner, node, howner, hnode, hpart⟩ := locate_cons.1 hseat
      obtain ⟨hopen, hwritten⟩ := (wayOpen_cons_iff howner).1 hway
      obtain ⟨last, hlast, hstays⟩ := h.look hfirst hnode fun _ hover hne =>
        hopen.written_eq_none howner hover hne
      rw [hwritten] at hstays
      exact locate_cons.2 ⟨owner, last, ih howner hopen, hlast, (hstays.seat?_eq owner index).trans hpart⟩

/-- A seat belongs to the root if nothing on the way to it can be changed. -/
theorem base_eq_none_iff {path : List Nat} (h : grips.locate path = some seat) :
    seat.base = none ↔ ∀ front, front <:+ path → front ≠ path → ∀ owner node, grips.locate front = some owner →
      grips.look owner = some node → node.isFixed = true := by
  induction path generalizing seat with
  | nil =>
      cases h
      refine ⟨fun _ front hsuffix hne => absurd (List.suffix_nil.1 hsuffix) hne, fun _ => rfl⟩
  | cons index path ih =>
      obtain ⟨owner, node, howner, hnode, hseat⟩ := locate_cons.1 h
      have hpath := ne_cons_of_suffix (List.suffix_refl path) index
      have hself := List.suffix_cons index path
      rcases Node.exists_of_seat? hseat with ⟨frame, width, rfl, -, rfl⟩ | ⟨address, frame, width, rfl, -, rfl⟩
      · constructor
        · intro hbase front hsuffix hne other found hother hfound
          have habove : front <:+ path := (List.suffix_cons_iff.1 hsuffix).resolve_left hne
          by_cases hsame : front = path
          · subst hsame
            rw [howner] at hother
            cases hother
            rw [hnode] at hfound
            cases hfound
            rfl
          · exact (ih howner).1 hbase front habove hsame other found hother hfound
        · intro hfixed
          apply (ih howner).2
          intro front hsuffix hne
          exact hfixed front (hsuffix.trans hself) (ne_cons_of_suffix hsuffix index)
      · constructor
        · intro hbase
          cases hbase
        · intro hfixed
          cases hfixed path hself hpath owner _ howner hnode

theorem exists_slot_of_seat? {owner : Seat} {node : Node} {index : Nat} (hnode : grips.look owner = some node)
    (hseat : node.seat? owner index = some seat) :
    ∃ cell ∈ grips.store, ∃ slot ∈ cell.slots, grips.seek seat = some slot := by
  obtain ⟨held, hheld, hobject⟩ := Option.bind_eq_some_iff.1 hnode
  cases held with
  | atom value =>
      cases hobject
      cases hseat
  | object address =>
      obtain ⟨cell, hcell, rfl⟩ := Option.map_eq_some_iff.1 hobject
      refine ⟨cell, List.mem_of_getElem? hcell, ?_⟩
      by_cases hmutable : cell.frame.isMutable = true
      · rw [if_pos hmutable] at hseat
        obtain ⟨hindex, hsame⟩ := Option.ite_none_right_eq_some.1 hseat
        cases hsame
        refine ⟨cell.slots[index], List.getElem_mem hindex, ?_⟩
        simp only [seek, Store.follow, base?, hcell, Option.filter, hmutable, if_true, Option.bind_some]
        exact List.getElem?_eq_getElem hindex
      · rw [if_neg hmutable] at hseat
        obtain ⟨hindex, hsame⟩ := Option.ite_none_right_eq_some.1 hseat
        cases hsame
        refine ⟨cell.slots[index], List.getElem_mem hindex, ?_⟩
        exact (seek_part_iff hheld hcell (by simpa using hmutable)).2 (List.getElem?_eq_getElem hindex)

/-- Without references to nowhere every seat that a path leads to holds something. -/
theorem exists_look (hclosed : grips.store.Closed)
    (hroot : ∀ grip, grips.grip? .root = some grip → grip.slot.Refers grips.store) {path : List Nat}
    (hlive : (grips.grip? .root).isSome = true) (h : grips.locate path = some seat) :
    ∃ node, grips.look seat = some node := by
  have hfound : ∃ slot, grips.seek seat = some slot ∧ slot.Refers grips.store := by
    cases path with
    | nil =>
        cases h
        obtain ⟨root, hgrip⟩ := Option.isSome_iff_exists.1 hlive
        refine ⟨root.slot, ?_, hroot root hgrip⟩
        simp only [seek, Seat.root, Store.follow, base?] at hgrip ⊢
        rw [hgrip]
        rfl
    | cons index path =>
        obtain ⟨owner, node, -, hnode, hseat⟩ := locate_cons.1 h
        obtain ⟨cell, hcell, slot, hslot, hseek⟩ := exists_slot_of_seat? hnode hseat
        exact ⟨slot, hseek, hclosed cell hcell slot hslot⟩
  obtain ⟨slot, hseek, hrefers⟩ := hfound
  rw [look, hseek, Option.bind_some]
  cases slot with
  | atom value => exact ⟨_, rfl⟩
  | object address =>
      have hlt : address < grips.store.length := hrefers
      rw [Store.node?, List.getElem?_eq_getElem hlt]
      exact ⟨_, rfl⟩

/-- In the end no path leads where none led before, or past what was written. -/
theorem Runs.locate_first (h : Runs first calls grips) (hfirst : first.Coherent writable)
    (hfull : ∀ path seat, first.locate path = some seat → ∃ node, first.look seat = some node)
    {path : List Nat} (hseat : grips.locate path = some seat) :
    first.locate path = some seat ∧ WayOpen first calls path := by
  induction path generalizing seat with
  | nil => exact ⟨hseat, fun outer hsuffix hne => absurd (List.suffix_nil.1 hsuffix) hne⟩
  | cons index path ih =>
      obtain ⟨owner, last, howner, hlast, hpart⟩ := locate_cons.1 hseat
      obtain ⟨hearlier, hopen⟩ := ih howner
      obtain ⟨node, hnode⟩ := hfull path owner hearlier
      obtain ⟨found, hfound, hstays⟩ := h.look hfirst hnode fun _ hover hne =>
        hopen.written_eq_none hearlier hover hne
      rw [hlast] at hfound
      cases hfound
      cases hwritten : written calls owner with
      | some value =>
          rw [hwritten] at hstays
          cases hstays
          cases hpart
      | none =>
          rw [hwritten] at hstays
          have hsame : node.Stays last := hstays
          refine ⟨locate_cons.2 ⟨owner, node, hearlier, hnode, ?_⟩, ?_⟩
          · rw [← hsame.seat?_eq]
            exact hpart
          · exact (wayOpen_cons_iff hearlier).2 ⟨hopen, hwritten⟩

/-! ## What holds after any calls -/

theorem Runs.stop_eq (h : Runs first calls grips) (hfirst : first.Coherent writable) :
    ∀ call ∈ calls, call.stop = if Opens writable call.seat.base then none else some (.refuse .notWritable) := by
  induction h with
  | first =>
      intro call hcall
      cases hcall
  | make _ _ ih => exact ih
  | @set calls grips hruns seat grip hlive value _ ih =>
      intro call hcall
      rcases List.mem_cons.1 hcall with rfl | hcall
      · have hcoherent := hruns.coherent hfirst
        cases hopens : Opens writable seat.base with
        | true =>
            obtain ⟨later, hset, -⟩ := hcoherent.set_of_opens hlive hopens value
            simp only [hset, if_true]
        | false => simp [hcoherent.set_of_not_opens hlive hopens value]
      · exact ih call hcall

/-- A call raises what the handle does with a new value by itself. -/
theorem Coherent.stop_eq (h : grips.Coherent writable) (hlive : grips.grip? seat = some grip) (value : Value)
    (reach : Nat) : (grips.set seat value).stop =
      match (grip.handle grips.store reach).set value with
      | .error reason => some (.refuse reason)
      | .ok _ => none := by
  have hmode := h.mode_eq_readOnly_iff hlive
  cases hopens : Opens writable seat.base with
  | true =>
      obtain ⟨later, hset, -⟩ := h.set_of_opens hlive hopens value
      rw [hset]
      cases hcase : grip.setter with
      | readOnly =>
          rw [hcase, hopens] at hmode
          cases hmode.1 rfl
      | scratch | assign | exchange => simp [Grip.handle, Handle.make, Handle.set, hcase, Setter.mode]
  | false =>
      rw [h.set_of_not_opens hlive hopens value]
      simp [Grip.handle, Handle.make, Handle.set, hmode.2 hopens]

/--
Handles below a root after calls, the latest of them first.  A call is refused below a root that cannot be written
if nothing in between can be changed, and changes nothing then; no other call is.  Every handle holds what its slot
holds.  The content of the root has the slots that it had, but for those inside of what was written, and each of
them holds the last value that was written to it, or what it held before.
-/
structure LosesNothing (first : Grips) (writable : Bool) (calls : List HandleCall) (grips : Grips) : Prop where
  stops : ∀ call ∈ calls,
    call.stop = if Opens writable call.seat.base then none else some (.refuse .notWritable)
  fixed : ∀ path seat, grips.locate path = some seat →
    (seat.base = none ↔ ∀ front, front <:+ path → front ≠ path → ∀ owner node,
      grips.locate front = some owner → grips.look owner = some node → node.isFixed = true)
  answers : ∀ seat grip, grips.grip? seat = some grip → ∀ value reach, (grips.set seat value).stop =
    match (grip.handle grips.store reach).set value with
    | .error reason => some (.refuse reason)
    | .ok _ => none
  refused : ∀ seat grip, grips.grip? seat = some grip → Opens writable seat.base = false → ∀ value,
    grips.set seat value = ⟨grips, some (.refuse .notWritable)⟩
  held : ∀ seat grip, grips.grip? seat = some grip → ∃ slot, grips.seek seat = some slot ∧
    ∀ reach, (grip.handle grips.store reach).value = grips.store.read reach slot
  kept : ∀ path seat node, first.locate path = some seat → first.look seat = some node →
    WayOpen first calls path → grips.locate path = some seat ∧
      (∀ value, written calls seat = some value → grips.look seat = some (.atom value)) ∧
      (written calls seat = none → ∃ last, grips.look seat = some last ∧ node.Stays last)
  nothingElse : first.store.Closed →
    (∀ root, first.grip? .root = some root → root.slot.Refers first.store) → ∀ path seat,
      grips.locate path = some seat → first.locate path = some seat ∧ WayOpen first calls path

/-- However handles are made and written below a root, one for each slot, nothing that is written is lost. -/
theorem losesNothing_of_runs {store : Store} {slot : Slot} {evaluator : Evaluator}
    (h : (start store slot evaluator writable).Runs calls grips) :
    LosesNothing (start store slot evaluator writable) writable calls grips := by
  have hfirst := coherent_start store slot evaluator writable
  have hcoherent := h.coherent hfirst
  constructor
  case stops => exact h.stop_eq hfirst
  case fixed => exact fun path seat hseat => base_eq_none_iff hseat
  case answers => exact fun seat grip hgrip value reach => hcoherent.stop_eq hgrip value reach
  case refused => exact fun seat grip hgrip hopens value => hcoherent.set_of_not_opens hgrip hopens value
  case held => exact fun seat grip hgrip => ⟨grip.slot, hcoherent.holds seat grip hgrip, fun _ => rfl⟩
  case kept =>
    intro path seat node hseat hnode hway
    obtain ⟨last, hlast, hstays⟩ := h.look hfirst hnode fun _ hover hne => hway.written_eq_none hseat hover hne
    refine ⟨h.locate hfirst hseat hway, fun value hvalue => ?_, fun hnone => ⟨last, hlast, ?_⟩⟩
    · rw [hvalue] at hstays
      cases hstays
      exact hlast
    · rw [hnone] at hstays
      exact hstays
  case nothingElse =>
    intro hclosed hroot path seat hseat
    exact h.locate_first hfirst (fun path seat hseat => exists_look hclosed hroot hfirst.root hseat) hseat

/-- A pair of a point that cannot be changed and nothing; the point has a text and a list of one number. -/
def pairOfPoint : Store :=
  [⟨.record ⟨"Point", .data, true⟩ ["name", "parts"], [.atom (.ofText "a"), .object 1]⟩,
    ⟨.sequence .list none, [.atom (.ofInt 1)]⟩,
    ⟨.sequence .tuple none, [.object 0, .atom .null]⟩]

theorem losesNothing_of_runs_pairOfPoint :
    ∃ calls grips, (start pairOfPoint (.object 2) .sequence true).Runs calls grips ∧
      calls.map HandleCall.value = [.ofInt 2, .ofText "b"] ∧
      grips.look ⟨none, [0, 0]⟩ = some (.atom (.ofText "b")) ∧
      grips.look ⟨some (1, 0), []⟩ = some (.atom (.ofInt 2)) ∧
      LosesNothing (start pairOfPoint (.object 2) .sequence true) true calls grips := by
  have hpoint : (start pairOfPoint (.object 2) .sequence true).Runs [] _ :=
    .make .first (rfl : make _ .root 0 .record = some _)
  have hname := hpoint.make (rfl : make _ ⟨none, [0]⟩ 0 (.scalar .text) = some _)
  have hparts := hname.make (rfl : make _ ⟨none, [0]⟩ 1 .sequence = some _)
  have hnumber := hparts.make (rfl : make _ ⟨none, [1, 0]⟩ 0 (.scalar .int) = some _)
  have hfirst := @Runs.set _ _ _ hnumber ⟨none, [0, 0]⟩ _ rfl (.ofText "b") rfl
  have hsecond := @Runs.set _ _ _ hfirst ⟨some (1, 0), []⟩ _ rfl (.ofInt 2) rfl
  exact ⟨_, _, hsecond, rfl, rfl, rfl, losesNothing_of_runs hsecond⟩

end Grips

end RuleCheck
