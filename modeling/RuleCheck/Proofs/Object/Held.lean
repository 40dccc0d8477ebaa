import RuleCheck.Proofs.Object.Store
import RuleCheck.Proofs.Value.Depth

/-! # What slots hold

A slot holds a value if the objects that it leads to have the frames and the slots that the value asks for.
Its footprint lists the addresses of the objects among them that can be changed.  Objects that cannot be
changed may be shared, and need not be listed.
-/

namespace RuleCheck

def Value.frame? : Value → Option Frame
  | .sequence kind derived _ => some (.sequence kind derived)
  | .mapping kind derived entries => some (.mapping kind derived (entries.map Prod.fst))
  | .box _ => some .box
  | .record head slots => some (.record head (slots.map Prod.fst))
  | _ => none

namespace Frame

def footprint (frame : Frame) (address : Nat) : List Nat :=
  if frame.isMutable then [address] else []

end Frame

namespace Value

theorem isMutable_of_frame {value : Value} {frame : Frame} (h : value.frame? = some frame) :
    value.isMutable = frame.isMutable := by
  cases value <;> cases h <;> rfl

theorem fill_children {value : Value} {frame : Frame} (h : value.frame? = some frame) :
    frame.fill value.children = value := by
  cases value with
  | mapping kind derived entries =>
      cases h
      exact congrArg _ (List.zip_of_prod rfl rfl).symm
  | record head slots =>
      cases h
      exact congrArg _ (List.zip_of_prod rfl rfl).symm
  | sequence | box => cases h; rfl
  | _ => cases h

end Value

/-- A slot with the value that it holds, and the footprint of that value. -/
structure Held where
  slot : Slot
  value : Value
  footprint : List Nat

/-- The addresses of the objects that can be changed, of an object with these parts. -/
def Frame.extent (frame : Frame) (address : Nat) (parts : List Held) : List Nat :=
  frame.footprint address ++ parts.flatMap Held.footprint

namespace Frame

variable {frame : Frame} {address : Nat} {parts : List Held}

theorem mem_extent_self (h : frame.isMutable = true) : address ∈ frame.extent address parts := by
  simp [extent, footprint, h]

theorem mem_extent_of_part {part : Held} {own : Nat} (hpart : part ∈ parts)
    (hown : own ∈ part.footprint) : own ∈ frame.extent address parts :=
  List.mem_append_right _ (List.mem_flatMap.2 ⟨part, hpart, hown⟩)

end Frame

namespace Store

/-- What a slot of a store holds, with the addresses of the objects in it that can be changed. -/
inductive Holds (store : Store) : Slot → Value → List Nat → Prop
  | atom {value : Value} (h : value.frame? = none) : Holds store (.atom value) value []
  | object {address : Nat} {frame : Frame} {value : Value} {parts : List Held}
      (hcell : store[address]? = some ⟨frame, parts.map Held.slot⟩)
      (hframe : value.frame? = some frame) (hchildren : value.children = parts.map Held.value)
      (h : ∀ part ∈ parts, Holds store part.slot part.value part.footprint) :
      Holds store (.object address) value (frame.extent address parts)

/-- An object of a store with what its slots hold. -/
structure Owns (store : Store) (address : Nat) (frame : Frame) (parts : List Held) : Prop where
  cell : store[address]? = some ⟨frame, parts.map Held.slot⟩
  holds : ∀ part ∈ parts, store.Holds part.slot part.value part.footprint

/-- Objects outside of a footprint stay as they are, and so do all objects that cannot be changed. -/
def Keeps (store later : Store) (footprint : List Nat) : Prop :=
  ∀ address cell, store[address]? = some cell →
    (cell.frame.isMutable = true → address ∉ footprint) → later[address]? = some cell

variable {store later last : Store} {slot : Slot} {value : Value} {footprint other : List Nat}

theorem Owns.object {address : Nat} {frame : Frame} {parts : List Held}
    (h : store.Owns address frame parts) (hframe : value.frame? = some frame)
    (hchildren : value.children = parts.map Held.value) :
    store.Holds (.object address) value (frame.extent address parts) :=
  .object h.cell hframe hchildren h.holds

theorem Holds.owns {frame : Frame} (h : store.Holds slot value footprint)
    (hframe : value.frame? = some frame) :
    ∃ address parts, slot = .object address ∧ value.children = parts.map Held.value ∧
      footprint = frame.extent address parts ∧ store.Owns address frame parts := by
  cases h with
  | atom hnone =>
      rw [hframe] at hnone
      cases hnone
  | object hcell hown hchildren h =>
      rw [hframe] at hown
      cases hown
      exact ⟨_, _, rfl, hchildren, rfl, hcell, h⟩

theorem Holds.atom_eq (h : store.Holds slot value footprint) (hframe : value.frame? = none) :
    slot = .atom value ∧ footprint = [] := by
  cases h with
  | atom => exact ⟨rfl, rfl⟩
  | object _ hown =>
      rw [hframe] at hown
      cases hown

theorem Keeps.refl (store : Store) (footprint : List Nat) : store.Keeps store footprint :=
  fun _ _ hcell _ => hcell

theorem Keeps.trans (hfirst : store.Keeps later footprint) (hsecond : later.Keeps last footprint) :
    store.Keeps last footprint :=
  fun address cell hcell hout => hsecond address cell (hfirst address cell hcell hout) hout

theorem Keeps.mono (h : store.Keeps later footprint) (hsubset : footprint ⊆ other) :
    store.Keeps later other :=
  fun address cell hcell hout => h address cell hcell fun hmutable hmem =>
    hout hmutable (hsubset hmem)

theorem keeps_append (store : Store) (cell : Cell) (footprint : List Nat) :
    store.Keeps (store ++ [cell]) footprint := by
  intro address old hold _
  rw [List.getElem?_append_left (List.getElem?_eq_some_iff.1 hold).1]
  exact hold

theorem keeps_set {address : Nat} {cell new : Cell} (hcell : store[address]? = some cell)
    (hmutable : cell.frame.isMutable = true) : store.Keeps (store.set address new) [address] := by
  intro other old hold hout
  have hne : address ≠ other := by
    rintro rfl
    rw [hcell, Option.some.injEq] at hold
    subst hold
    exact hout hmutable (List.mem_singleton_self address)
  rw [List.getElem?_set_ne hne]
  exact hold

/-- The frame rule: what a slot holds does not change if the changed objects are none of its own. -/
theorem Holds.keep (h : store.Holds slot value footprint) (hkeeps : store.Keeps later other)
    (hapart : ∀ address ∈ footprint, address ∉ other) : later.Holds slot value footprint := by
  induction h with
  | atom h => exact .atom h
  | @object address frame value parts hcell hframe hchildren _ ih =>
      refine .object ?_ hframe hchildren fun part hpart => ih part hpart fun own hown => ?_
      · apply hkeeps address _ hcell
        exact fun hmutable => hapart address (Frame.mem_extent_self hmutable)
      · apply hapart own
        exact Frame.mem_extent_of_part hpart hown

/-- Reading goes deep enough if it covers the levels of the value. -/
theorem Holds.read_eq (h : store.Holds slot value footprint) {depth : Nat} (hdepth : value.depth ≤ depth) :
    store.read depth slot = value := by
  induction h generalizing depth with
  | atom h => cases depth <;> rfl
  | @object address frame value parts hcell hframe hchildren _ ih =>
      have hpos := value.depth_pos
      obtain ⟨depth, rfl⟩ : ∃ n, depth = n + 1 := ⟨depth - 1, by omega⟩
      have hparts : (parts.map Held.slot).map (store.read depth) = value.children := by
        rw [hchildren, List.map_map]
        apply List.map_congr_left
        intro part hpart
        apply ih part hpart
        have hchild : part.value ∈ value.children := by
          rw [hchildren]
          exact List.mem_map_of_mem hpart
        have hlt := Value.depth_lt_of_child hchild
        omega
      simp only [read, hcell, hparts]
      exact Value.fill_children hframe

end Store

end RuleCheck
