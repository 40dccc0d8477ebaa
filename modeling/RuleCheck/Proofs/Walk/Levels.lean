import RuleCheck.Proofs.Value.Depth
import RuleCheck.Proofs.Value.Rebuild
import RuleCheck.Proofs.Walk.Calls
import RuleCheck.Proofs.Walk.Views

/-! # The levels of a walk are enough

Every place that a visit calls for needs fewer levels than the place of the visit, provided that no hook
assigns a field.  The budget of a walk covers the need of its first place, so no level is ever missing.
-/

namespace RuleCheck

namespace Walk

variable {walk : Walk}

/-! ## Depth is not gained -/

theorem kept_depth (hassign : walk.AssignsNothing) :
    walk.Kept fun _ _ old new => new.depth ≤ old.depth where
  refl _ _ := Nat.le_refl _
  trans hfirst hsecond := Nat.le_trans hsecond hfirst
  scalar _ _ _ _ := by
    simp only [Value.ofScalar, Value.depth]
    exact Value.depth_pos _
  present _ _ h := h
  content _ h := by
    simp only [Value.depth]
    omega
  items _ hitems _ h := Value.depth_rebuild_le hitems (Value.itemsDepth_each h) _
  entries _ _ h := by
    have := Value.entriesDepth_zipWith_le h
    simp only [Value.withEntries, Value.depth]
    omega
  field _ _ _ hcontent h := Value.depth_withField_le hcontent h
  assign _ hview haction hassigned _ := hassign.elim hview haction hassigned

/-! ## Need -/

/-- The number of levels that a place needs, if annotations of fields have at most so many parts. -/
def need (parts : Nat) (place : Place) : Nat :=
  (place.value.depth - 1) * (parts + 1) + place.declared.size +
    match place.value with
    | .null | .scalar .. => 0
    | _ => 1

theorem need_pos (parts : Nat) (place : Place) : 0 < need parts place := by
  have := place.declared.size_pos
  unfold need
  omega

theorem need_le (parts : Nat) (place : Place) :
    need parts place ≤ (place.value.depth - 1) * (parts + 1) + place.declared.size + 1 := by
  unfold need
  split <;> omega

theorem need_lt_of_depth {parts : Nat} {place next : Place}
    (hdepth : next.value.depth < place.value.depth) (hsize : next.declared.size ≤ parts) :
    need parts next < need parts place := by
  have hnext := need_le parts next
  have hpos := next.value.depth_pos
  have hdeclared := place.declared.size_pos
  have hstep : (next.value.depth - 1) * (parts + 1) + (parts + 1) ≤
      (place.value.depth - 1) * (parts + 1) := by
    have : next.value.depth - 1 + 1 ≤ place.value.depth - 1 := by omega
    have := Nat.mul_le_mul_right (parts + 1) this
    rwa [Nat.add_mul, Nat.one_mul] at this
  have hplace : (place.value.depth - 1) * (parts + 1) + place.declared.size ≤ need parts place := by
    unfold need
    omega
  omega

def FieldsBounded (walk : Walk) (parts : Nat) : Prop :=
  ∀ base view, walk.view? base = some view → ∀ field ∈ view.fields, field.declared.size ≤ parts

theorem depth_lt_of_item {value item : Value} {declared : Annotation} {items : List Value}
    (hnull : value.isNull = false) (hcategory : (value.resolve declared).category = .list)
    (hitems : value.items? = some items) (hitem : item ∈ items) :
    item.depth < value.depth ∨
      (∃ start stop step, value = .range start stop step) ∧ ∃ n, item = .ofInt n := by
  rcases Value.items_of_resolve hnull hcategory hitems with rfl | ⟨hrange, hnumbers⟩
  · exact .inl (Value.depth_lt_of_child hitem)
  · exact .inr ⟨hrange, hnumbers item hitem⟩

/-- Every visit that is called for needs fewer levels, and is declared with no more parts. -/
theorem Calls.need_lt (hregistry : walk.evaluator? = Registry.standard.get?)
    (hassign : walk.AssignsNothing) {parts levels : Nat} (hfields : walk.FieldsBounded parts)
    {place next : Place} (hsize : place.declared.size ≤ parts) (h : walk.Calls levels place next) :
    need parts next < need parts place ∧ next.declared.size ≤ parts := by
  have hbound := Value.bounded_resolve place.value place.declared
  have hone := place.declared.size_pos
  cases h with
  | present hcategory hnull =>
      have hlt : place.resolved.element.size < place.declared.size :=
        (Value.resolve_optional hnull hcategory).1
      refine ⟨?_, Nat.le_trans (Nat.le_of_lt hlt) hsize⟩
      unfold need
      simp only
      omega
  | @content content hcategory hvalue hnull =>
      have hsmall := Nat.le_trans hbound.element hsize
      refine ⟨need_lt_of_depth ?_ hsmall, hsmall⟩
      simp [hvalue, Value.depth]
  | @item remaining items index item hcategory hnull hremaining hitems hitem hbefore =>
      have hown := hbound.item hone index
      have hsmall := Nat.le_trans hown hsize
      refine ⟨?_, hsmall⟩
      rcases depth_lt_of_item hnull hcategory hitems (List.mem_of_getElem? hitem) with
        hdepth | ⟨⟨start, stop, step, hvalue⟩, n, rfl⟩
      · exact need_lt_of_depth hdepth hsmall
      · unfold need
        simp only [Place.resolved] at hown ⊢
        simp only [hvalue, Value.ofInt, Value.depth] at hown ⊢
        omega
  | @entry remaining kind derived entries index key item hcategory hremaining hvalue hentry hbefore =>
      have hsmall := Nat.le_trans hbound.element hsize
      refine ⟨need_lt_of_depth ?_ hsmall, hsmall⟩
      have hmem : item ∈ entries.map Prod.snd :=
        List.mem_map.2 ⟨_, List.mem_of_getElem? hentry, rfl⟩
      have := Value.depth_le_itemsDepth hmem
      have := Value.itemsDepth_map_snd_le entries
      simp only [hvalue, Value.depth]
      omega
  | @field view before rest field rules content hcategory hnull hview hplan hbefore hcontent =>
      obtain ⟨hmem, hsteps⟩ :=
        (kept_depth hassign).onTheWay_before hregistry hcategory hview hplan hbefore
      have hsmall := hfields _ _ hview _ hmem
      refine ⟨need_lt_of_depth ?_ hsmall, hsmall⟩
      exact Nat.lt_of_lt_of_le (Value.depth_lt_of_field hcontent) hsteps.kept

theorem Reaches.need_le (hregistry : walk.evaluator? = Registry.standard.get?)
    (hassign : walk.AssignsNothing) {parts levels rest : Nat} (hfields : walk.FieldsBounded parts)
    {place last : Place} (h : walk.Reaches levels place rest last)
    (hsize : place.declared.size ≤ parts) (hneed : need parts place ≤ levels) :
    need parts last ≤ rest := by
  induction h with
  | here => exact hneed
  | call hcall _ ih =>
      obtain ⟨hlt, hnext⟩ := hcall.need_lt hregistry hassign hfields hsize
      exact ih hnext (by omega)

theorem OwnFault.ne_tooDeep {place : Place} {fault : Fault} (h : walk.OwnFault place fault) :
    fault ≠ .tooDeep := by
  cases h with
  | token _ _ h =>
      cases h with
      | threshold | default => simp
      | @pattern _ failure _ _ _ _ hfault => cases failure <;> cases hfault <;> simp
  | @hook _ hook _ _ _ _ _ hraise =>
      rintro rfl
      exact (hook.ofHook _ _ _ hraise).2 rfl
  | _ => simp

/-- With enough levels, a fault that stops a walk is one of a place that the walk came to. -/
theorem reaches_of_fault_of_need (hregistry : walk.evaluator? = Registry.standard.get?)
    (hviews : ∀ base : Class, base.isRecord = true → ∃ view, walk.view? base = some view)
    (hassign : walk.AssignsNothing) {parts levels : Nat} (hfields : walk.FieldsBounded parts)
    {place : Place} (hsize : place.declared.size ≤ parts) (hneed : need parts place ≤ levels)
    {fault : Fault} (h : (walk.visitAt levels place).stop = some (.fault fault)) :
    ∃ rest last, walk.Reaches levels place rest last ∧ walk.OwnFault last fault := by
  obtain ⟨rest, last, hreach, ⟨rfl, -⟩ | hown⟩ := reaches_of_fault hregistry hviews h
  · have := hreach.need_le hregistry hassign hfields hsize hneed
    have := need_pos parts last
    omega
  · exact ⟨rest, last, hreach, hown⟩

theorem visit_ne_tooDeep (hregistry : walk.evaluator? = Registry.standard.get?)
    (hviews : ∀ base : Class, base.isRecord = true → ∃ view, walk.view? base = some view)
    (hassign : walk.AssignsNothing) {parts levels : Nat} (hfields : walk.FieldsBounded parts)
    {place : Place} (hsize : place.declared.size ≤ parts) (hneed : need parts place ≤ levels) :
    (walk.visitAt levels place).stop ≠ some (.fault .tooDeep) := by
  intro h
  obtain ⟨rest, last, -, hown⟩ :=
    reaches_of_fault_of_need hregistry hviews hassign hfields hsize hneed h
  exact hown.ne_tooDeep rfl

end Walk

end RuleCheck
