import RuleCheck.Proofs.Category.Present
import RuleCheck.Proofs.Text.Folding
import RuleCheck.Proofs.Value.Hollow
import RuleCheck.Proofs.Visit.Lengths
import RuleCheck.Proofs.Walk.Frame
import RuleCheck.Proofs.Walk.Views

/-! # What `required` asks of a walk

A value that is asked for is not missing afterwards, and a scalar or a box is not zero.  A sequence or mapping
is only asked to be there, and a record is looked at before its texts are trimmed, so these can pass and be
zero; but only if they were hollow to begin with.
-/

namespace RuleCheck

namespace ScalarKind

variable {kind : ScalarKind} {rules : RuleSet} {held : Value}

theorem isZero_iff_of_suits {value : Value} (h : kind.Suits value) {zero : Bool} :
    kind.isZero value = .ok zero ↔ value.isZero = zero := by
  obtain ⟨origin, content, rfl, hbase⟩ := h
  rw [isZero_scalar ⟨origin, content, rfl, hbase⟩, Except.ok.injEq]
  rfl

theorem isHollow_of_settle (hheld : held = .null ∨ kind.Suits held) {content : Scalar} {changed : Bool}
    (hsettle : kind.settle rules held = .ok ⟨.ofScalar content, changed⟩)
    (h : (Value.ofScalar content).isHollow = true) : held.isHollow = true := by
  rcases hheld with rfl | hsuits
  · rfl
  · have hnull : held.isNull = false := by
      obtain ⟨origin, own, rfl, -⟩ := hsuits
      rfl
    obtain ⟨folded, default, hsettling⟩ := settle_eq_ok hsettle
    have hfolded := folded?_eq_ok hsettling.folding
    have hvalue := hsettling.value_eq
    rw [start_of_present kind hnull] at hfolded hvalue
    -- it is enough that the text that takes the place of the held one is hollow
    suffices (folded.getD held).isHollow = true by
      rcases hfolded with ⟨rfl, -⟩ | ⟨origin, s, rfl, rfl, rfl⟩
      · exact this
      · exact RuleSet.all_isBlank_of_foldText this
    cases hnew : default with
    | none =>
        rw [hnew, Option.getD_none] at hvalue
        rw [← hvalue]
        exact h
    | some new =>
        obtain ⟨-, -, -, hzero, -⟩ := default?_eq_ok hsettling.defaulting new hnew
        rw [start_of_present kind hnull] at hzero
        rcases hfolded with ⟨rfl, -⟩ | ⟨origin, s, rfl, rfl, rfl⟩
        · exact Value.isHollow_of_isZero _ ((isZero_iff_of_suits hsuits).1 hzero)
        · exact Value.isHollow_of_isZero _ ((isZero_iff_of_suits (suits_ofScalar rfl)).1 hzero)

theorem nonzero_of_visit (hheld : held = .null ∨ kind.Suits held) (hrequired : rules.required = true)
    {writable : Bool} (hpass : (kind.visit writable held rules).stop = none) :
    (kind.visit writable held rules).value.isNull = false ∧
      (kind.visit writable held rules).value.isZero = false := by
  obtain ⟨settled, hsettle, hcheck, hleft⟩ := visit_passed hpass
  obtain ⟨folded, default, h⟩ := settle_eq_ok hsettle
  have hsuits := h.suits hheld
  have hnonzero : settled.value.isZero = false := by
    have hstop := (checkStop_eq_none hcheck).1
    rw [← isZero_iff_of_suits hsuits]
    obtain ⟨zero, hzero⟩ := isZero_of_suits hsuits
    cases zero with
    | false => exact hzero
    | true => simp [requiredStop, hrequired, hzero] at hstop
  rcases hleft with ⟨hchanged, hfinal, -⟩ | ⟨-, -, hfinal, -⟩
  · rw [hfinal]
    rcases hheld with rfl | ⟨origin, own, rfl, -⟩
    · have hzero := h.changed_of_null rfl
      rw [isZero_iff_of_suits hsuits, hnonzero, hchanged] at hzero
      cases hzero
    · obtain ⟨origin', content, hvalue, -⟩ := hsuits
      have hsame := h.content_of_present rfl hchanged
      rw [hvalue] at hsame hnonzero
      cases hsame
      exact ⟨rfl, hnonzero⟩
  · rw [hfinal]
    obtain ⟨origin, content, hvalue, -⟩ := hsuits
    rw [hvalue] at hnonzero ⊢
    exact ⟨rfl, hnonzero⟩

end ScalarKind

namespace Walk

variable {walk : Walk}

theorem isHollow_of_each {replaced : Bool} {index : Nat} {olds news : List Value}
    (h : Visits.Each (fun _ _ old new => new.isHollow = true → old.isHollow = true) replaced index
      olds news) (hnews : ∀ new ∈ news, new.isHollow = true) : ∀ old ∈ olds, old.isHollow = true := by
  induction h with
  | nil => simp
  | cons head _ ih =>
      rw [List.forall_mem_cons] at hnews ⊢
      exact ⟨head hnews.1, ih hnews.2⟩

theorem isHollow_of_rebuild {replaced : Bool} {declared : Annotation} {value : Value}
    {items news : List Value} (hcategory : (value.resolve declared).category = .list)
    (hitems : value.items? = some items)
    (h : Visits.Each (fun _ _ old new => new.isHollow = true → old.isHollow = true) replaced 0
      items news) (hnew : (value.rebuild replaced news).isHollow = true) : value.isHollow = true := by
  have hlength := h.length_eq
  have hnull := Value.isNull_of_items hitems
  rcases Value.list_of_resolve hnull hcategory with ⟨kind, derived, olds, rfl⟩ |
    ⟨start, stop, step, rfl⟩ | ⟨head, slots, rfl, htuple⟩
  · cases hitems
    -- a sequence is hollow if it is empty, and it is as long as before
    have hempty : news.isEmpty = true := by
      unfold Value.rebuild at hnew
      split at hnew <;> exact hnew
    have hitems : items = [] := by
      rw [List.isEmpty_iff.1 hempty] at hlength
      exact List.eq_nil_of_length_eq_zero hlength.symm
    subst hitems
    rfl
  · simpa [Value.rebuild, Value.isRebuilt, Value.withItems] using hnew
  · rw [Value.items?_of_isTuple htuple] at hitems
    cases hitems
    simp only [Value.isHollow]
    rw [Value.slotsAreHollow_iff]
    unfold Value.rebuild at hnew
    split at hnew
    · have hempty : news = [] := List.isEmpty_iff.1 hnew
      rw [hempty] at hlength
      simp [List.eq_nil_of_length_eq_zero hlength.symm]
    · simp only [Value.withItems, htuple, if_true, Value.isHollow] at hnew
      rw [Value.slotsAreHollow_iff, Value.map_snd_zipWith (by simpa using hlength)] at hnew
      exact isHollow_of_each h hnew

/-- Hooks apart, a visit leaves something hollow only of something hollow, and nothing missing that was there. -/
theorem kept_isHollow (hassign : walk.AssignsNothing) :
    walk.Kept fun _ _ old new =>
      (old.isNull = false → new.isNull = false) ∧ (new.isHollow = true → old.isHollow = true) where
  refl _ _ := ⟨id, id⟩
  trans hfirst hsecond :=
    ⟨fun hnull => hsecond.1 (hfirst.1 hnull), fun hhollow => hfirst.2 (hsecond.2 hhollow)⟩
  scalar hcategory _ _ hsettle := by
    obtain ⟨rules, hsettle⟩ := hsettle
    exact ⟨fun _ => rfl,
      ScalarKind.isHollow_of_settle (ScalarKind.suits_of_resolve hcategory) hsettle⟩
  present _ _ h := h
  content _ h := ⟨fun _ => rfl, Value.isHollow_of_box h.1⟩
  items hcategory hitems hwritable h :=
    ⟨(walk.kept_isNull.items hcategory hitems hwritable (h.mono fun _ _ _ _ _ hR => hR.1)),
      isHollow_of_rebuild hcategory hitems (h.mono fun _ _ _ _ _ hR => hR.2)⟩
  entries {replaced declared kind derived entries news} hcategory hwritable h := by
    refine ⟨fun _ => rfl, fun hnew => ?_⟩
    have hlength := h.length_eq
    have hempty : (List.zipWith (fun entry new => (entry.1, new)) entries news).isEmpty = true := hnew
    cases entries with
    | nil => rfl
    | cons entry entries =>
        cases news with
        | nil => simp at hlength
        | cons new news => cases hempty
  field {replaced declared value content new view field} _ _ _ hcontent h := by
    refine ⟨fun hnull => by rwa [(Value.alike_withField _ _ _).isNull], fun hnew => ?_⟩
    cases value with
    | record head slots =>
        simp only [Value.withField, Value.isHollow] at hnew ⊢
        exact Value.slotsAreHollow_of_putSlot hcontent h.2 hnew
    | box old =>
        obtain ⟨hname, rfl⟩ : field.name = Schema.boxField.name ∧ old = content := by
          simpa [Value.fieldContent?] using hcontent
        simp only [Value.withField, hname, beq_self_eq_true, if_true] at hnew
        exact Value.isHollow_of_box h.1 hnew
    | _ => simp [Value.fieldContent?, Value.field?] at hcontent
  assign _ hview haction hassigned _ := hassign.elim hview haction hassigned

/-- Whether a value is as it must be if it is asked for and passes. -/
structure Provides (resolved : Resolved) (value final : Value) : Prop where
  present : final.isNull = false
  /-- Only a sequence, a mapping or a record may be zero, and only if there were but blanks in it. -/
  nonzero : final.isZero = true →
    resolved.category ∈ [.list, .map, .record] ∧ value.isHollow = true
  /-- A record is not zero before it is visited. -/
  record : resolved.category = .record → value.isZero = false

theorem provides_of_kept {resolved : Resolved} {value final : Value} (hnull : value.isNull = false)
    (hkept : (value.isNull = false → final.isNull = false) ∧
      (final.isHollow = true → value.isHollow = true))
    (hcategory : resolved.category ∈ [.list, .map, .record])
    (hrecord : resolved.category = .record → value.isZero = false) :
    Provides resolved value final where
  present := hkept.1 hnull
  nonzero hzero := ⟨hcategory, hkept.2 (Value.isHollow_of_isZero final hzero)⟩
  record := hrecord

theorem provides_of_nonzero {resolved : Resolved} {value final : Value}
    (hfinal : final.isNull = false ∧ final.isZero = false)
    (hcategory : resolved.category ≠ .record) : Provides resolved value final where
  present := hfinal.1
  nonzero hzero := by
    rw [hfinal.2] at hzero
    cases hzero
  record h := absurd h hcategory

section

variable {descend : Bool → Annotation → Value → RuleSet → Visit} {writable : Bool}
  {resolved : Resolved} {value : Value} {rules : RuleSet}

theorem missingStop_ne_none (hrequired : rules.required = true) (key : String) :
    rules.missingStop key ≠ none := by
  simp [RuleSet.missingStop, hrequired]

theorem isNull_of_sequence (hrequired : rules.required = true)
    (hpass : (Visit.sequence descend writable resolved value rules).stop = none) :
    value.isNull = false := by
  cases hnull : value.isNull with
  | false => rfl
  | true =>
      simp only [Visit.sequence, hnull, if_true] at hpass
      exact absurd hpass (missingStop_ne_none hrequired _)

theorem isNull_of_mapping (hrequired : rules.required = true)
    (hpass : (Visit.mapping descend resolved value rules).stop = none) : value.isNull = false := by
  cases hnull : value.isNull with
  | false => rfl
  | true =>
      simp only [Visit.mapping, hnull, if_true] at hpass
      exact absurd hpass (missingStop_ne_none hrequired _)

/-- A record that is asked for is there and not zero when its visit begins. -/
theorem nonzero_of_record (hrequired : rules.required = true)
    (hpass : (Visit.record descend walk.tokenize walk.tagKey walk.context walk.view? writable value
      rules).stop = none) : value.isNull = false ∧ value.isZero = false := by
  have hnull : value.isNull = false := by
    cases hnull : value.isNull with
    | false => rfl
    | true => simp [Visit.record, hnull, hrequired] at hpass
  exact ⟨hnull, ((Visit.record_passed hnull hpass).1 hrequired).2⟩

theorem reference_nonzero (hregistry : walk.evaluator? = Registry.standard.get?)
    (hrequired : rules.required = true) {levels : Nat}
    (hpass : (Visit.reference (walk.visit levels) resolved value rules).stop = none) :
    (Visit.reference (walk.visit levels) resolved value rules).value.isNull = false ∧
      (Visit.reference (walk.visit levels) resolved value rules).value.isZero = false := by
  cases value with
  | box content =>
      cases hnull : content.isNull with
      | true =>
          obtain rfl := Value.eq_null_of_isNull hnull
          simp [Visit.reference, hrequired, Visit.refuse, Visit.halt] at hpass
      | false =>
          rw [Visit.reference_present hnull] at hpass ⊢
          exact ⟨rfl, isNull_of_visit hregistry hpass hnull⟩
  | _ => cases hpass

/-- What evaluators make of a value that is asked for, the one of optional layers apart. -/
theorem provides_of_evaluate (hregistry : walk.evaluator? = Registry.standard.get?) {levels : Nat}
    {declared : Annotation} {evaluator : Evaluator} (hrequired : rules.required = true)
    (hcategory : (value.resolve declared).category = evaluator.category)
    (hlayer : evaluator ≠ .optional)
    (hkept : (value.isNull = false → (walk.evaluate (walk.visit levels) evaluator writable
          (value.resolve declared) value rules).value.isNull = false) ∧
      ((walk.evaluate (walk.visit levels) evaluator writable (value.resolve declared) value
          rules).value.isHollow = true → value.isHollow = true))
    (hpass : (walk.evaluate (walk.visit levels) evaluator writable (value.resolve declared) value
      rules).stop = none) :
    Provides (value.resolve declared) value (walk.evaluate (walk.visit levels) evaluator writable
      (value.resolve declared) value rules).value := by
  cases evaluator with
  | optional => exact absurd rfl hlayer
  | reference =>
      exact provides_of_nonzero (reference_nonzero hregistry hrequired hpass)
        (by rw [hcategory]; decide)
  | scalar kind =>
      have hsuits : value = .null ∨ kind.Suits value := ScalarKind.suits_of_resolve hcategory
      exact provides_of_nonzero (ScalarKind.nonzero_of_visit hsuits hrequired hpass)
        (by rw [hcategory]; cases kind <;> decide)
  | record =>
      obtain ⟨hnull, hzero⟩ := nonzero_of_record hrequired hpass
      exact provides_of_kept hnull hkept (by rw [hcategory]; decide) fun _ => hzero
  | sequence =>
      exact provides_of_kept (isNull_of_sequence hrequired hpass) hkept (by rw [hcategory]; decide)
        fun h => by rw [hcategory] at h; cases h
  | mapping =>
      exact provides_of_kept (isNull_of_mapping hrequired hpass) hkept (by rw [hcategory]; decide)
        fun h => by rw [hcategory] at h; cases h

end

/-- What a walk makes of a value that is asked for, if some evaluator visits the value. -/
theorem provides_of_visit (hregistry : walk.evaluator? = Registry.standard.get?)
    (hassign : walk.AssignsNothing) {levels : Nat} {writable : Bool} {declared : Annotation}
    {value : Value} {rules : RuleSet} (hrequired : rules.required = true)
    (hsupported : (value.resolvePresent declared).category ≠ .unsupported)
    (hpass : (walk.visit levels writable declared value rules).stop = none) :
    Provides (value.resolvePresent declared) value
      (walk.visit levels writable declared value rules).value := by
  induction levels generalizing writable declared value rules with
  | zero => simp [Walk.visit, Visit.abort, Visit.halt] at hpass
  | succ levels ih =>
      have hkept := ((kept_isHollow hassign).visit_keeps hregistry (levels + 1) writable declared value
        rules hpass).2
      cases hevaluator : walk.evaluator? (value.resolve declared).category with
      | none =>
          have hnone : (value.resolve declared).category = .unsupported := by
            rw [hregistry] at hevaluator
            revert hevaluator
            cases (value.resolve declared).category <;> decide
          rw [Value.resolvePresent_of_ne (by simp [hnone])] at hsupported
          exact absurd hnone hsupported
      | some evaluator =>
          have hcategory : (value.resolve declared).category = evaluator.category := by
            rw [hregistry] at hevaluator
            exact (Registry.category_of_standard hevaluator).symm
          simp only [Walk.visit, hevaluator] at hpass hkept ⊢
          by_cases hlayer : evaluator = .optional
          · subst hlayer
            simp only [Walk.evaluate, Visit.optional] at hpass ⊢
            cases hnull : value.isNull with
            | true => simp [hnull, hrequired, Visit.missing] at hpass
            | false =>
                have hbelow : value.resolvePresent declared =
                    value.resolvePresent (value.resolve declared).element := by
                  rw [Value.resolvePresent, dif_pos ⟨hnull, hcategory⟩]
                rw [hbelow] at hsupported ⊢
                simp only [hnull, Bool.false_eq_true, if_false] at hpass ⊢
                exact ih hrequired hsupported hpass
          · have hne : (value.resolve declared).category ≠ .optional := by
              rw [hcategory]
              cases evaluator with
              | optional => exact absurd rfl hlayer
              | scalar kind => cases kind <;> decide
              | _ => decide
            rw [Value.resolvePresent_of_ne hne]
            exact provides_of_evaluate hregistry hrequired hcategory hlayer hkept hpass

end Walk

end RuleCheck
