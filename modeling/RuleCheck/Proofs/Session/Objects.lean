import RuleCheck.Proofs.Object.Layout
import RuleCheck.Proofs.Object.Visits
import RuleCheck.Proofs.Session.Declared

/-! # What calls do to objects

A call for a value that is laid out in objects changes none of those that cannot be changed.  In the end the
object that was handed in holds what is left of it: its own scalars as far as it cannot be changed, and the value
that is returned from the first object on that can.
-/

namespace RuleCheck.Session

variable {schema : Schema} (config : Config)

/-- A call over objects walks over the declarations alone. -/
theorem Reachable.validateSlot_eq {session : Session} (h : Reachable schema session) (validator : Validator)
    {store : Store} {slot : Slot} {value : Value} {footprint : List Nat}
    (hheld : store.Holds slot value footprint) {reach : Nat} (hdepth : value.depth ≤ reach) (rules : String)
    (declared : Annotation) (context : Value) :
    session.validateSlot validator reach store slot rules declared context =
      (schema.walk validator context).visitSlot reach
        (Walk.budget schema validator.config.tagKey declared value) store true declared slot
        (.parse rules) := by
  have hfaithful := h.faithful
  unfold validateSlot
  rw [hheld.read_eq hdepth, hfaithful.schema_eq, hfaithful.walk_eq, hfaithful.tokenize_eq]

/--
Every value can be laid out in objects, and every call for it ends over those objects as it does for the value.
Whatever it ends in, an object that cannot be changed is as it was, and the slot that was handed in holds what is
left of the value: its own graft with the value that is returned.
-/
theorem objects_hold_graft (hassign : schema.AssignsNothing) (hdistinct : schema.DistinctNames)
    {session : Session} (hsession : Reachable schema session) (value : Value) (rules : String)
    (declared : Annotation) (context : Value) :
    (∃ (store : Store) (slot : Slot) (footprint : List Nat),
        store.Holds slot value footprint ∧ footprint.Nodup) ∧
      ∀ (store : Store) (slot : Slot) (footprint : List Nat) (reach : Nat),
        store.Holds slot value footprint → footprint.Nodup → value.depth ≤ reach →
        let outcome := (session.validateValue ⟨config, .standard⟩ value rules declared context).1
        let done := session.validateSlot ⟨config, .standard⟩ reach store slot rules declared context
        done.stop = outcome.stop ∧ done.store.Holds done.slot outcome.value footprint ∧
          (∀ (address : Nat) (cell : Cell), store[address]? = some cell → cell.frame.isMutable = false →
            done.store[address]? = some cell) ∧
          outcome.state = value.graft outcome.value ∧ done.store.Holds slot outcome.state footprint ∧
          ∀ depth, outcome.state.depth ≤ depth → done.store.read depth slot = outcome.state := by
  constructor
  · obtain ⟨store, held, rfl, hlaid⟩ := Store.exists_laid value []
    refine ⟨store, held.slot, held.footprint, hlaid.holds held (List.mem_singleton_self held), ?_⟩
    simpa using hlaid.nodup
  · intro store slot footprint reach hheld hnodup hdepth outcome done
    have houtcome : outcome = _ :=
      hsession.validateValue_eq ⟨config, .standard⟩ value rules declared context
    have hdone : done = _ :=
      hsession.validateSlot_eq ⟨config, .standard⟩ hheld hdepth rules declared context
    have hregistry := schema.walk_registry config context
    have hdistinct := Schema.walk_distinctFields config context hdistinct
    have hassign := Schema.walk_assignsNothing config context hassign
    have hmatches := Walk.simulates_visitSlot hregistry hdistinct hassign reach
      (Walk.budget schema config.tagKey declared value) hheld hnodup hdepth true declared (.parse rules)
    have hshaped := (Walk.shapes_visit (Walk.matched_of_standard hregistry) hdistinct hassign
      (Walk.budget schema config.tagKey declared value) true declared value (.parse rules)).shaped
    have hgraft := hheld.graft hmatches.holds hshaped.congruent hmatches.keeps
    rw [houtcome, hdone]
    refine ⟨hmatches.stop, hmatches.holds, fun address cell hcell hfixed => ?_, rfl, hgraft,
      fun depth => hgraft.read_eq⟩
    exact hmatches.keeps address cell hcell fun hmutable =>
      absurd (hfixed.symm.trans hmutable) Bool.false_ne_true

/-- A tuple of a list and a text: the cell of the tuple stays, and its slots hold what is left of it. -/
theorem objects_hold_graft_pair :
    let store : Store :=
      [⟨.sequence .list none, [.atom (.ofText " a ")]⟩,
        ⟨.sequence .tuple none, [.object 0, .atom (.ofText " b ")]⟩]
    let value : Value := .sequence .tuple none [.sequence .list none [.ofText " a "], .ofText " b "]
    let outcome := ((start .empty).validateValue .standard value "" .absent .null).1
    let done := (start .empty).validateSlot .standard 3 store (.object 1) "" .absent .null
    Schema.empty.AssignsNothing ∧ Schema.empty.DistinctNames ∧ Reachable .empty (.start .empty) ∧
      store.Holds (.object 1) value [0] ∧ [0].Nodup ∧ value.depth ≤ 3 ∧
      done.store[1]? = store[1]? ∧ done.store.Holds done.slot outcome.value [0] ∧
      done.store.Holds (.object 1) (value.graft outcome.value) [0] := by
  intro store value outcome done
  have hassign : Schema.empty.AssignsNothing := nofun
  have hdistinct : Schema.empty.DistinctNames := by simp [Schema.DistinctNames, Schema.empty]
  have hstart := @Reachable.start .empty
  have hlist : store.Holds (.object 0) (.sequence .list none [.ofText " a "]) [0] :=
    @Store.Holds.object store 0 (.sequence .list none) _ [⟨.atom (.ofText " a "), .ofText " a ", []⟩] rfl rfl
      rfl (by simpa using Store.Holds.atom rfl)
  have hheld : store.Holds (.object 1) value [0] :=
    @Store.Holds.object store 1 (.sequence .tuple none) _
      [⟨.object 0, .sequence .list none [.ofText " a "], [0]⟩, ⟨.atom (.ofText " b "), .ofText " b ", []⟩]
      rfl rfl rfl (by simpa using ⟨hlist, Store.Holds.atom rfl⟩)
  have hdepth : value.depth ≤ 3 := by decide
  obtain ⟨-, hnew, hkept, hstate, hold, -⟩ := (objects_hold_graft .standard hassign hdistinct hstart value ""
    .absent .null).2 store (.object 1) [0] 3 hheld (by decide) hdepth
  rw [hstate] at hold
  exact ⟨hassign, hdistinct, hstart, hheld, by decide, hdepth, hkept 1 _ rfl rfl, hnew, hold⟩

end RuleCheck.Session
