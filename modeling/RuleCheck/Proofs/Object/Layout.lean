import RuleCheck.Proofs.Object.Held

/-! # Laying out values

Every value can be put into a store, in new objects of which no two are the same.
-/

namespace RuleCheck.Store

structure Laid (store later : Store) (parts : List Held) : Prop where
  holds : ∀ part ∈ parts, later.Holds part.slot part.value part.footprint
  nodup : (parts.flatMap Held.footprint).Nodup
  keeps : store.Keeps later []
  grows : store.length ≤ later.length
  fresh : ∀ address ∈ parts.flatMap Held.footprint, store.length ≤ address ∧ address < later.length

theorem laid_nil (store : Store) : Laid store store [] where
  holds := by simp
  nodup := by simp
  keeps := .refl store []
  grows := Nat.le_refl _
  fresh := by simp

theorem Laid.cons {store middle later : Store} {part : Held} {parts : List Held}
    (hfirst : Laid store middle [part]) (hrest : Laid middle later parts) :
    Laid store later (part :: parts) := by
  have hpart : [part].flatMap Held.footprint = part.footprint := by simp
  have hnew := hfirst.fresh
  have hunique := hfirst.nodup
  rw [hpart] at hnew hunique
  have hsize := hfirst.grows
  have hlater := hrest.grows
  refine ⟨fun other hother => ?_, ?_, hfirst.keeps.trans hrest.keeps, by omega, fun address hmem => ?_⟩
  · rcases List.mem_cons.1 hother with rfl | hother
    · exact (hfirst.holds other (List.mem_singleton_self other)).keep hrest.keeps
        fun _ _ => List.not_mem_nil
    · exact hrest.holds other hother
  · rw [List.flatMap_cons, List.nodup_append]
    refine ⟨hunique, hrest.nodup, fun own hown other hother hsame => ?_⟩
    have hbefore := (hnew own hown).2
    have hafter := (hrest.fresh other hother).1
    omega
  · rw [List.flatMap_cons] at hmem
    rcases List.mem_append.1 hmem with hmem | hmem
    · have hbounds := hnew address hmem
      omega
    · have hbounds := hrest.fresh address hmem
      omega

theorem Laid.object {store later : Store} {parts : List Held} {value : Value} {frame : Frame}
    (h : Laid store later parts) (hframe : value.frame? = some frame)
    (hchildren : value.children = parts.map Held.value) :
    Laid store (later ++ [⟨frame, parts.map Held.slot⟩])
      [⟨.object later.length, value, frame.extent later.length parts⟩] := by
  have hlast := later.keeps_append ⟨frame, parts.map Held.slot⟩ []
  have howns : Owns (later ++ [⟨frame, parts.map Held.slot⟩]) later.length frame parts :=
    ⟨List.getElem?_concat_length, fun part hpart =>
      (h.holds part hpart).keep hlast fun _ _ => List.not_mem_nil⟩
  have hown (address : Nat) (hmem : address ∈ frame.footprint later.length) : address = later.length := by
    unfold Frame.footprint at hmem
    split at hmem
    · exact List.mem_singleton.1 hmem
    · cases hmem
  have hsize := h.grows
  refine ⟨fun part hpart => ?_, ?_, h.keeps.trans hlast, ?_, fun address hmem => ?_⟩
  · rw [List.mem_singleton.1 hpart]
    exact howns.object hframe hchildren
  · rw [List.flatMap_singleton, Frame.extent, List.nodup_append]
    refine ⟨?_, h.nodup, fun own hmem other hother hsame => ?_⟩
    · unfold Frame.footprint
      split <;> simp
    · have hbounds := (h.fresh other hother).2
      have haddress := hown own hmem
      omega
  · rw [List.length_append]
    omega
  · rw [List.flatMap_singleton] at hmem
    rw [List.length_append, List.length_singleton]
    rcases List.mem_append.1 hmem with hmem | hmem
    · have hsame := hown address hmem
      omega
    · have hbounds := h.fresh address hmem
      omega

theorem exists_laid_parts {values : List Value}
    (h : ∀ value ∈ values, ∀ store : Store, ∃ (later : Store) (held : Held),
      held.value = value ∧ Laid store later [held]) (store : Store) :
    ∃ (later : Store) (parts : List Held), values = parts.map Held.value ∧ Laid store later parts := by
  induction values generalizing store with
  | nil => exact ⟨store, [], rfl, laid_nil store⟩
  | cons value values ih =>
      obtain ⟨middle, held, rfl, hfirst⟩ := h value (by simp) store
      obtain ⟨later, parts, rfl, hrest⟩ :=
        ih (fun value hvalue => h value (List.mem_cons_of_mem _ hvalue)) middle
      exact ⟨later, held :: parts, rfl, hfirst.cons hrest⟩

theorem exists_laid (value : Value) (store : Store) :
    ∃ (later : Store) (held : Held), held.value = value ∧ Laid store later [held] := by
  cases hframe : value.frame? with
  | none =>
      refine ⟨store, ⟨.atom value, value, []⟩, rfl, fun part hpart => ?_, by simp, .refl store [],
        Nat.le_refl _, by simp⟩
      rw [List.mem_singleton.1 hpart]
      exact .atom hframe
  | some frame =>
      have hbelow : ∀ child ∈ value.children, ∀ store : Store, ∃ (later : Store) (held : Held),
          held.value = child ∧ Laid store later [held] := by
        intro child hchild store
        have hlt := Value.depth_lt_of_child hchild
        exact exists_laid child store
      obtain ⟨later, parts, hchildren, hparts⟩ := exists_laid_parts hbelow store
      exact ⟨_, _, rfl, hparts.object hframe hchildren⟩
termination_by value.depth

end RuleCheck.Store
