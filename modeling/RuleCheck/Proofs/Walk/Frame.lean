import RuleCheck.Proofs.Value.Graft
import RuleCheck.Proofs.Walk.Kept

/-! # What a visit leaves alone

A visit that passes leaves the category of the value as it was, together with what is declared of the
things inside.  If the place of the value was not written, the object in that place holds the value
afterwards.
-/

namespace RuleCheck.Walk

variable {walk : Walk}

/-! ## Categories -/

theorem alike_rebuild {value : Value} {declared : Annotation}
    (hcategory : (value.resolve declared).category = .list) (replaced : Bool) (items : List Value) :
    (value.rebuild replaced items).resolve declared = value.resolve declared := by
  unfold Value.rebuild
  split
  · rename_i h
    exact Value.resolve_rebuilt items (Bool.and_eq_true_iff.1 h).2 hcategory
  · exact (Value.alike_withItems value items).resolve_eq declared

theorem kept_resolve (walk : Walk) :
    walk.Kept fun _ declared old new => new.resolve declared = old.resolve declared where
  refl _ _ := rfl
  trans hfirst hsecond := hsecond.trans hfirst
  scalar hcategory hbase _ _ := Value.resolve_ofScalar hcategory hbase
  present hcategory hnull _ := (Value.resolve_optional hnull hcategory).2 _
  content _ _ := (Value.alike_box _ _).resolve_eq _
  items hcategory _ _ _ := alike_rebuild hcategory _ _
  entries _ _ _ := (Value.alike_withEntries _ _).resolve_eq _
  field _ _ _ _ _ := (Value.alike_withField _ _ _).resolve_eq _
  assign _ _ _ _ h := (alike_assignField h).1.resolve_eq _

theorem kept_isNull (walk : Walk) :
    walk.Kept fun _ _ old new => old.isNull = false → new.isNull = false where
  refl _ _ h := h
  trans hfirst hsecond h := hsecond (hfirst h)
  scalar _ _ _ _ _ := rfl
  present _ _ h := h
  content _ _ _ := rfl
  items {replaced declared value items news} _ _ _ _ h := by
    unfold Value.rebuild
    split
    · rfl
    · rwa [(Value.alike_withItems value news).isNull]
  entries _ _ _ h := by rwa [(Value.alike_withEntries _ _).isNull]
  field _ _ _ _ _ h := by rwa [(Value.alike_withField _ _ _).isNull]
  assign _ _ _ _ h hnull := by rwa [(alike_assignField h).1.isNull]

/-! ## Objects -/

private theorem graft_rebuild {replaced : Bool} {value : Value}
    {items news : List Value} (hitems : value.items? = some items)
    (hwritable : replaced = true → value.itemsWritable true = true)
    (h : Visits.Each (fun own _ old new => own = false → old.graft new = new) replaced 0 items news)
    (hreplaced : (replaced && value.isRebuilt) = false) :
    value.graft (value.rebuild replaced news) = value.rebuild replaced news := by
  simp only [Value.rebuild, hreplaced, Bool.false_eq_true, if_false]
  cases replaced with
  | false => exact Value.graft_withItems hitems (Value.graftItems_each h rfl)
  | true =>
      rw [Bool.true_and] at hreplaced
      exact Value.graft_of_isMutable (Value.isMutable_of_itemsWritable (hwritable rfl) hreplaced) _

/-- As long as the place of a value is not written, its object holds what becomes of it. -/
theorem kept_graft (walk : Walk) :
    walk.Kept fun replaced _ old new => replaced = false → old.graft new = new where
  refl _ value _ := value.graft_self
  trans hfirst hsecond h := by
    obtain ⟨hreplaced, hlater⟩ := Bool.or_eq_false_iff.1 h
    exact Value.graft_trans _ _ _ (hfirst hreplaced) (hsecond hlater)
  scalar _ _ _ _ h := by cases h
  present _ _ h := h
  content _ _ _ := by simp [Value.graft]
  items _ hitems hwritable h hreplaced := graft_rebuild hitems hwritable h hreplaced
  entries {replaced declared kind derived entries news} _ hwritable h _ := by
    cases hkind : kind.isMutable with
    | true => simp [Value.graft, hkind]
    | false =>
        have hreplaced : replaced = false := by
          cases replaced
          · rfl
          · simp [hkind] at hwritable
        exact (Value.graft_mapping_eq_iff hkind _ _ _).2
          ⟨_, rfl, Value.graftEntries_zipWith (Value.graftItems_each h hreplaced)⟩
  field {replaced declared value content new view field} _ _ _ hcontent h hreplaced := by
    cases hmutable : value.isMutable with
    | false =>
        simp only [hmutable, Bool.not_false, Bool.true_and] at hreplaced
        exact Value.graft_withField hcontent (h hreplaced)
    | true =>
        cases value with
        | record head slots => simp_all [Value.isMutable, Value.withField, Value.graft]
        | box old => simp [Value.graft]
        | _ => simp [Value.fieldContent?, Value.field?] at hcontent
  assign _ _ _ _ h _ := by
    obtain ⟨head, slots, rfl, hhead, rfl⟩ := Value.assignField_eq_ok h
    simp [Value.graft, hhead]

theorem replaced_of_visit (hregistry : walk.evaluator? = Registry.standard.get?) {levels : Nat}
    {declared : Annotation} {value : Value} {rules : RuleSet}
    (hpass : (walk.visit levels false declared value rules).stop = none) :
    (walk.visit levels false declared value rules).replaced = false := by
  have := (walk.kept_resolve.visit_keeps hregistry levels false declared value rules hpass).1
  simpa using this

theorem resolve_of_visit (hregistry : walk.evaluator? = Registry.standard.get?) {levels : Nat}
    {writable : Bool} {declared : Annotation} {value : Value} {rules : RuleSet}
    (hpass : (walk.visit levels writable declared value rules).stop = none) :
    (walk.visit levels writable declared value rules).value.resolve declared =
      value.resolve declared :=
  (walk.kept_resolve.visit_keeps hregistry levels writable declared value rules hpass).2

theorem isNull_of_visit (hregistry : walk.evaluator? = Registry.standard.get?) {levels : Nat}
    {writable : Bool} {declared : Annotation} {value : Value} {rules : RuleSet}
    (hpass : (walk.visit levels writable declared value rules).stop = none)
    (hnull : value.isNull = false) :
    (walk.visit levels writable declared value rules).value.isNull = false :=
  (walk.kept_isNull.visit_keeps hregistry levels writable declared value rules hpass).2 hnull

theorem graft_of_visit (hregistry : walk.evaluator? = Registry.standard.get?) {levels : Nat}
    {writable : Bool} {declared : Annotation} {value : Value} {rules : RuleSet}
    (hpass : (walk.visit levels writable declared value rules).stop = none)
    (hreplaced : (walk.visit levels writable declared value rules).replaced = false) :
    value.graft (walk.visit levels writable declared value rules).value =
      (walk.visit levels writable declared value rules).value :=
  (walk.kept_graft.visit_keeps hregistry levels writable declared value rules hpass).2 hreplaced

end RuleCheck.Walk
