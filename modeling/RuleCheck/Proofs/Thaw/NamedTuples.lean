import RuleCheck.Proofs.Thaw.Simulation
import RuleCheck.Proofs.Walk.Levels
import RuleCheck.Proofs.Walk.Quiet

/-! # Values without named tuples

Where hooks assign nothing, a walk over a value without named tuples comes to none, so it rebuilds none.
-/

namespace RuleCheck

namespace Value

/-- Whether neither the value nor anything inside it is a named tuple. -/
def NoNamedTuples (value : Value) : Prop :=
  ∀ inner : Value, inner.Within value → ∀ head slots, inner = .record head slots →
    head.isTuple = false

theorem NoNamedTuples.child {value child : Value} (h : value.NoNamedTuples)
    (hchild : child ∈ value.children) : child.NoNamedTuples :=
  fun inner hinner => h inner (.inside hchild hinner)

theorem noNamedTuples_of_children {value : Value}
    (hown : ∀ head slots, value = .record head slots → head.isTuple = false)
    (hchildren : ∀ child ∈ value.children, child.NoNamedTuples) : value.NoNamedTuples := by
  intro inner hinner
  cases hinner with
  | here => exact hown
  | inside hchild hinner => exact hchildren _ hchild inner hinner

theorem noNamedTuples_ofScalar (content : Scalar) : (Value.ofScalar content).NoNamedTuples := by
  refine noNamedTuples_of_children ?_ ?_
  · rintro head slots ⟨⟩
  · intro child hchild
    cases hchild

theorem noNamedTuples_sequence {items : List Value} (h : ∀ item ∈ items, item.NoNamedTuples)
    (kind : SequenceKind) (derived : Option String) :
    (Value.sequence kind derived items).NoNamedTuples := by
  refine noNamedTuples_of_children ?_ h
  rintro head slots ⟨⟩

theorem NoNamedTuples.withField {value new : Value} (h : value.NoNamedTuples)
    (hnew : new.NoNamedTuples) (name : String) : (value.withField name new).NoNamedTuples := by
  cases value with
  | box content =>
      refine noNamedTuples_of_children ?_ ?_
      · rintro head slots ⟨⟩
      · intro child hchild
        simp only [Value.withField, children, List.mem_singleton] at hchild
        rw [hchild]
        split
        · exact hnew
        · exact h.child (by simp [children])
  | record head slots =>
      refine noNamedTuples_of_children ?_ ?_
      · rintro _ _ ⟨⟩
        exact h _ (.here _) head slots rfl
      · have hslots : ∀ child ∈ slots.map Prod.snd, child.NoNamedTuples := fun child hchild =>
          h.child hchild
        simp only [Value.withField, children]
        clear h
        induction slots with
        | nil => exact fun child hchild => hslots child hchild
        | cons slot slots ih =>
            have hrest := ih fun child hchild => hslots child (by simp_all)
            have hfirst := hslots slot.2 (by simp)
            obtain ⟨own, old⟩ := slot
            simp only [putSlot]
            split
            · intro child hchild
              rcases List.mem_cons.1 hchild with rfl | hchild
              · exact hnew
              · exact hslots child (by simp_all)
            · intro child hchild
              rcases List.mem_cons.1 hchild with rfl | hchild
              · exact hfirst
              · exact hrest child hchild
  | _ => exact h

end Value

namespace Visits

/-- If each visit keeps a property of values, all values that are left have it. -/
theorem Each.all {P : Value → Prop} {replaced : Bool} {index : Nat} {values news : List Value}
    (h : Each (fun _ _ old new => P old → P new) replaced index values news)
    (hvalues : ∀ value ∈ values, P value) : ∀ new ∈ news, P new := by
  induction h with
  | nil => simp
  | cons head _ ih =>
      intro new hnew
      rcases List.mem_cons.1 hnew with rfl | hnew
      · exact head (hvalues _ (by simp))
      · exact ih (fun value hvalue => hvalues value (by simp [hvalue])) new hnew

end Visits

namespace Walk

variable {walk : Walk}

theorem kept_noNamedTuples (hassign : walk.AssignsNothing) :
    walk.Kept fun _ _ old new => old.NoNamedTuples → new.NoNamedTuples where
  refl _ _ h := h
  trans hfirst hsecond h := hsecond (hfirst h)
  scalar {_ _ _ content} _ _ _ _ _ := Value.noNamedTuples_ofScalar content
  present _ _ h := h
  content {_ _ value new} _ h hbox := by
    have hnew : new.NoNamedTuples := h (hbox.child (by simp [Value.children]))
    refine Value.noNamedTuples_of_children ?_ ?_
    · rintro head slots ⟨⟩
    · intro child hchild
      rw [List.mem_singleton.1 hchild]
      exact hnew
  items {replaced declared value items news} hcategory hitems _ h hvalue := by
    have hnull := Value.isNull_of_items hitems
    rcases Value.list_of_resolve hnull hcategory with
      ⟨kind, derived, olds, rfl⟩ | ⟨start, stop, step, rfl⟩ | ⟨head, slots, rfl, htuple⟩
    · cases hitems
      have hnews := h.all fun item hitem => hvalue.child hitem
      unfold Value.rebuild
      split
      · exact Value.noNamedTuples_sequence hnews _ _
      · exact Value.noNamedTuples_sequence hnews _ _
    · simpa [Value.rebuild, Value.isRebuilt, Value.withItems] using hvalue
    · have hplain := hvalue _ (.here _) head slots rfl
      rw [hplain] at htuple
      cases htuple
  entries {replaced declared kind derived entries news} _ _ h hvalue := by
    have hnews := h.all fun item hitem => hvalue.child hitem
    have hlength : news.length = entries.length := by simpa using h.length_eq
    refine Value.noNamedTuples_of_children ?_ ?_
    · rintro head slots ⟨⟩
    · simp only [Value.withEntries, Value.children]
      rw [Value.map_snd_zipWith hlength]
      exact hnews
  field {_ _ value content new _ field} _ _ _ hcontent h hvalue :=
    hvalue.withField (h (hvalue.child (Value.mem_children_of_field hcontent))) field.name
  assign _ hview haction hassigned _ _ := hassign.elim hview haction hassigned

theorem Calls.noNamedTuples (hregistry : walk.evaluator? = Registry.standard.get?)
    (hassign : walk.AssignsNothing) {levels : Nat} {place next : Place}
    (hplace : place.value.NoNamedTuples) (h : walk.Calls levels place next) :
    next.value.NoNamedTuples := by
  cases h with
  | present => exact hplace
  | @content content hcategory hvalue hnull =>
      exact hplace.child (by simp [hvalue, Value.children])
  | @item remaining items index item hcategory hnull hremaining hitems hitem hbefore =>
      have hmem := List.mem_of_getElem? hitem
      rcases Value.items_of_resolve hnull hcategory hitems with rfl | ⟨-, hnumbers⟩
      · exact hplace.child hmem
      · obtain ⟨n, rfl⟩ := hnumbers item hmem
        exact Value.noNamedTuples_ofScalar _
  | @entry remaining kind derived entries index key item hcategory hremaining hvalue hentry hbefore =>
      refine hplace.child ?_
      rw [hvalue]
      exact List.mem_map.2 ⟨_, List.mem_of_getElem? hentry, rfl⟩
  | @field view before rest field rules content hcategory hnull hview hplan hbefore hcontent =>
      obtain ⟨-, hsteps⟩ :=
        (kept_noNamedTuples hassign).onTheWay_before hregistry hcategory hview hplan hbefore
      exact (hsteps.kept hplace).child (Value.mem_children_of_field hcontent)

theorem keepsNamedTuples_of_none (hregistry : walk.evaluator? = Registry.standard.get?)
    (hassign : walk.AssignsNothing) {levels : Nat} {place : Place}
    (hplace : place.value.NoNamedTuples) : walk.KeepsNamedTuples levels place := by
  intro rest last hreach hcategory
  rintro ⟨head, slots, hvalue⟩
  have hlast : last.value.NoNamedTuples := by
    induction hreach with
    | here => exact hplace
    | call hcall _ ih => exact ih (hcall.noNamedTuples hregistry hassign hplace) hcategory hvalue
  have hplain := hlast _ (.here _) head slots hvalue
  have hnull : last.value.isNull = false := by rw [hvalue]; rfl
  rcases Value.list_of_resolve hnull hcategory with
    ⟨kind, derived, items, hother⟩ | ⟨start, stop, step, hother⟩ | ⟨own, others, hother, htuple⟩
  · rw [hvalue] at hother
    cases hother
  · rw [hvalue] at hother
    cases hother
  · rw [hvalue] at hother
    cases hother
    rw [hplain] at htuple
    cases htuple

end Walk

end RuleCheck
