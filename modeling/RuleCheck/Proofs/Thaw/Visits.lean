import RuleCheck.Proofs.Thaw.Schemas
import RuleCheck.Proofs.Thaw.Values
import RuleCheck.Proofs.Visit.Passing

/-! # Visits to thawed values

Two visits match if the same thing stops them and what they leave differs as the values did before.
Visits that are made up of visits to the things inside match if those do.
-/

namespace RuleCheck

variable {p : String → Bool} {P : RecordHead → Prop}

structure Visit.Matches (p : String → Bool) (first second : Visit) : Prop where
  stop_eq : second.stop = first.stop
  thaws : first.stop = none → Thaws p first.value second.value
  replaced_of : first.stop = none → second.replaced = true → first.replaced = true

structure Visits.Matches (p : String → Bool) (first second : Visits) : Prop where
  stop_eq : second.stop = first.stop
  thaws : first.stop = .none → ThawsItems p first.values second.values
  replaced_of : first.stop = .none → second.replaced = true → first.replaced = true

namespace Visit

variable {first second : Visit} {value value' : Value}

theorem matches_halt (value value' : Value) (stop : Stop) :
    (halt value stop).Matches p (halt value' stop) := by
  refine ⟨rfl, ?_, ?_⟩
  · intro h
    cases h
  · intro h
    cases h

theorem matches_pass (h : Thaws p value value') : (pass value).Matches p (pass value') :=
  ⟨rfl, fun _ => h, fun _ h => h⟩

theorem matches_missing (stop : Option Stop) : (missing stop).Matches p (missing stop) :=
  ⟨rfl, fun _ => .null, fun _ h => h⟩

theorem Matches.after (h : first.Matches p second) (events events' : List Event) :
    (first.after events).Matches p (second.after events') :=
  ⟨h.stop_eq, h.thaws, h.replaced_of⟩

theorem Matches.andThen {next next' : Value → Visit} (h : first.Matches p second)
    (hnext : first.stop = none → (next first.value).Matches p (next' second.value)) :
    (first.andThen next).Matches p (second.andThen next') := by
  have hstop := h.stop_eq
  unfold Visit.andThen
  cases hfirst : first.stop with
  | some stop =>
      rw [hfirst] at hstop
      rw [hstop]
      refine ⟨?_, ?_, ?_⟩
      · rw [hstop, hfirst]
      · intro hpass
        rw [hfirst] at hpass
        cases hpass
      · intro hpass
        rw [hfirst] at hpass
        cases hpass
  | none =>
      rw [hfirst] at hstop
      rw [hstop]
      have hrest := hnext hfirst
      refine ⟨hrest.stop_eq, hrest.thaws, ?_⟩
      intro hpass hreplaced
      rcases Bool.or_eq_true_iff.1 hreplaced with hsecond | hsecond
      · exact Bool.or_eq_true_iff.2 (.inl (h.replaced_of hfirst hsecond))
      · exact Bool.or_eq_true_iff.2 (.inr (hrest.replaced_of hpass hsecond))

end Visit

/-! ## Items and entries -/

namespace Visits

theorem matches_cons {visit visit' : Visit} {rest rest' : Visits} (h : visit.Matches p visit')
    (hpass : visit.stop = .none) (hrest : rest.Matches p rest') :
    (Visits.cons visit rest).Matches p (Visits.cons visit' rest') := by
  refine ⟨hrest.stop_eq, fun hstop => .cons (h.thaws hpass) (hrest.thaws hstop), ?_⟩
  intro hstop hreplaced
  rcases Bool.or_eq_true_iff.1 hreplaced with hsecond | hsecond
  · exact Bool.or_eq_true_iff.2 (.inl (h.replaced_of hpass hsecond))
  · exact Bool.or_eq_true_iff.2 (.inr (hrest.replaced_of hstop hsecond))

theorem matches_halted (visit visit' : Visit) (stop : Stop) (unreached unreached' : List Value) :
    (halted visit stop unreached).Matches p (halted visit' stop unreached') := by
  refine ⟨rfl, ?_, ?_⟩
  · intro h
    cases h
  · intro h
    cases h

theorem matches_ofItems {visit visit' : Nat → Value → Visit} {items items' : List Value}
    (hitems : ThawsItems p items items') (index : Nat)
    (h : ∀ (i : Nat) item item', items[i]? = some item → Thaws p item item' →
      (∀ (j : Nat) other, j < i → items[j]? = some other → (visit (index + j) other).stop = .none) →
      (visit (index + i) item).Matches p (visit' (index + i) item')) :
    (ofItems visit index items).Matches p (ofItems visit' index items') := by
  induction items generalizing index items' with
  | nil =>
      cases hitems
      exact ⟨rfl, fun _ => .nil, fun _ h => h⟩
  | cons item items ih =>
      cases hitems with
      | cons hitem hrest =>
          have hfirst := h 0 item _ rfl hitem (by simp)
          have hstop := hfirst.stop_eq
          rw [Nat.add_zero] at hfirst hstop
          unfold ofItems
          cases hown : (visit index item).stop with
          | some stop =>
              rw [hown] at hstop
              simp only [hown, hstop]
              exact matches_halted _ _ _ _ _
          | none =>
              rw [hown] at hstop
              simp only [hown, hstop]
              refine matches_cons hfirst hown (ih hrest (index + 1) ?_)
              intro i other other' hother hthaws hbefore
              rw [Nat.add_assoc, Nat.add_comm 1]
              refine h (i + 1) other other' (by simpa using hother) hthaws ?_
              intro j earlier hj hearlier
              cases j with
              | zero =>
                  simp only [List.getElem?_cons_zero, Option.some.injEq] at hearlier
                  rw [← hearlier]
                  exact hown
              | succ j =>
                  have hpass := hbefore j earlier (by omega) (by simpa using hearlier)
                  rwa [Nat.add_assoc, Nat.add_comm 1] at hpass

theorem matches_ofEntries {visit visit' : Value → Visit} {entries entries' : List (Value × Value)}
    (hentries : ThawsEntries p entries entries') (assigned : Bool)
    (h : ∀ (i : Nat) key item item', entries[i]? = some (key, item) → Thaws p item item' →
      (∀ (j : Nat) other, j < i → entries[j]? = some other → (visit other.2).stop = .none) →
      (visit item).Matches p (visit' item')) :
    (ofEntries assigned visit entries).Matches p (ofEntries assigned visit' entries') := by
  induction entries generalizing entries' with
  | nil =>
      cases hentries
      exact ⟨rfl, fun _ => .nil, fun _ h => h⟩
  | cons entry entries ih =>
      cases hentries with
      | cons key hitem hrest =>
          rename_i item _ _
          have hfirst := h 0 key item _ rfl hitem (by simp)
          have hstop := hfirst.stop_eq
          unfold ofEntries
          rw [Value.keyText_thaw]
          cases hown : (visit item).stop with
          | some stop =>
              rw [hown] at hstop
              simp only [hown, hstop]
              exact matches_halted _ _ _ _ _
          | none =>
              rw [hown] at hstop
              simp only [hown, hstop]
              refine matches_cons hfirst hown (ih hrest ?_)
              intro i own other other' hother hthaws hbefore
              refine h (i + 1) own other other' (by simpa using hother) hthaws ?_
              intro j earlier hj hearlier
              cases j with
              | zero =>
                  simp only [List.getElem?_cons_zero, Option.some.injEq] at hearlier
                  rw [← hearlier]
                  exact hown
              | succ j => exact hbefore j earlier (by omega) (by simpa using hearlier)

end Visits

theorem ThawsItems.zipWith {slots slots' : List (String × Value)} {news news' : List Value}
    (h : ThawsSlots p slots slots') (hnews : ThawsItems p news news') :
    ThawsSlots p (List.zipWith (fun slot item => (slot.1, item)) slots news)
      (List.zipWith (fun slot item => (slot.1, item)) slots' news') := by
  induction slots generalizing slots' news news' with
  | nil =>
      cases h
      exact .nil
  | cons slot slots ih =>
      cases h with
      | cons name hvalue hrest =>
          cases hnews with
          | nil => exact .nil
          | cons hnew hmore => exact .cons name hnew (ih hrest hmore)

theorem ThawsItems.zipWithEntries {entries entries' : List (Value × Value)} {news news' : List Value}
    (h : ThawsEntries p entries entries') (hnews : ThawsItems p news news') :
    ThawsEntries p (List.zipWith (fun entry new => (entry.1, new)) entries news)
      (List.zipWith (fun entry new => (entry.1, new)) entries' news') := by
  induction entries generalizing entries' news news' with
  | nil =>
      cases h
      exact .nil
  | cons entry entries ih =>
      cases h with
      | cons key hvalue hrest =>
          cases hnews with
          | nil => exact .nil
          | cons hnew hmore => exact .cons key hnew (ih hrest hmore)

namespace Thaws

variable {value value' : Value}

theorem rangeItems (start stop step : Int) :
    ThawsItems p (Value.rangeItems start stop step) (Value.rangeItems start stop step) := by
  unfold Value.rangeItems
  generalize List.range _ = indices
  induction indices with
  | nil => exact .nil
  | cons index indices ih => exact .cons (.scalar _ _) ih

/-- The items of a list can be written like those of a thawed one, or they are scalars. -/
theorem items (h : Thaws p value value')
    (hshape : (∃ kind derived items, value = .sequence kind derived items) ∨
      (∃ start stop step, value = .range start stop step) ∨
      ∃ head slots, value = .record head slots ∧ head.isTuple = true)
    {writable : Bool} (hopen : writable = true ∨ value.scalar?.isSome = true) :
    ∃ items items', value.items? = some items ∧ value'.items? = some items' ∧
      ThawsItems p items items' ∧ value'.itemsWritable writable = value.itemsWritable writable ∧
      ∀ item ∈ items, value.itemsWritable writable = true ∨ item.scalar?.isSome = true := by
  rcases hshape with ⟨kind, derived, items, rfl⟩ | ⟨start, stop, step, rfl⟩ | ⟨head, slots, rfl, htuple⟩
  · rcases hopen with rfl | hscalar
    · cases h with
      | sequence hkind _ hitems =>
          refine ⟨_, _, rfl, rfl, hitems, by cases kind <;> rfl, fun _ _ => .inl ?_⟩
          cases kind <;> first | rfl | cases hkind
      | tuple hkind _ _ hitems =>
          refine ⟨_, _, rfl, rfl, hitems, ?_, fun _ _ => .inl rfl⟩
          rcases hkind with rfl | rfl <;> rfl
    · cases hscalar
  · cases h
    refine ⟨_, _, rfl, rfl, rangeItems start stop step, rfl, ?_⟩
    intro item hitem
    obtain ⟨index, -, rfl⟩ := List.mem_map.1 hitem
    exact .inr rfl
  · rcases hopen with rfl | hscalar
    · cases h with
      | record _ hslots =>
          have htuple' : (head.thaw p).isTuple = true := htuple
          refine ⟨_, _, Value.items?_of_isTuple htuple slots, Value.items?_of_isTuple htuple' _,
            hslots.items, rfl, fun _ _ => .inl ?_⟩
          simp [Value.itemsWritable, htuple]
    · cases hscalar

theorem isRebuilt_of (h : Thaws p value value') (hrebuilt : value'.isRebuilt = true) :
    value.isRebuilt = true := by
  cases h with
  | null | scalar | foreign | member | range | dict | box => cases hrebuilt
  | sequence hkind derived =>
      rename_i kind _ _ _
      cases kind <;> exact hrebuilt
  | tuple => rfl
  | record => exact hrebuilt

/-- Sequences with new items differ as they did before, unless a named tuple is rebuilt. -/
theorem rebuild (h : Thaws p value value') {news news' : List Value}
    (hnews : ThawsItems p news news') {replaced replaced' : Bool}
    (hle : replaced' = true → replaced = true)
    (hkept : (∃ head slots, value = .record head slots) → (replaced && value.isRebuilt) = false) :
    Thaws p (value.rebuild replaced news) (value'.rebuild replaced' news') := by
  cases h with
  | sequence hkind derived =>
      rename_i kind _ _ _
      have hsame (again : Bool) (items others : List Value) :
          (Value.sequence kind derived items).rebuild again others = .sequence kind derived others := by
        cases kind <;> cases hkind <;> simp [Value.rebuild, Value.isRebuilt, Value.withItems]
      rw [hsame, hsame]
      exact .sequence hkind derived hnews
  | tuple hkind derived derived' =>
      rename_i kind _ _ _
      have hfirst (items : List Value) : ∃ own,
          (Value.sequence .tuple derived items).rebuild replaced news = .sequence .tuple own news := by
        cases replaced
        · exact ⟨derived, rfl⟩
        · exact ⟨none, rfl⟩
      have hsecond (items : List Value) : ∃ own,
          (Value.sequence kind derived' items).rebuild replaced' news' = .sequence kind own news' := by
        rcases hkind with rfl | rfl <;> cases replaced'
        · exact ⟨derived', rfl⟩
        · exact ⟨none, rfl⟩
        · exact ⟨derived', rfl⟩
        · exact ⟨derived', rfl⟩
      obtain ⟨own, hfirst⟩ := hfirst _
      obtain ⟨own', hsecond⟩ := hsecond _
      rw [hfirst, hsecond]
      exact .tuple hkind own own' hnews
  | record head hslots =>
      have hsame := hkept ⟨_, _, rfl⟩
      have hsame' : (replaced' && head.isTuple) = false := by
        cases replaced'
        · rfl
        · rwa [hle rfl] at hsame
      have htuple : (head.thaw p).isTuple = head.isTuple := rfl
      simp only [Value.isRebuilt] at hsame
      simp only [Value.rebuild, Value.isRebuilt, Value.withItems, htuple, hsame, hsame',
        Bool.false_eq_true, if_false]
      by_cases hnamed : head.isTuple = true
      · rw [if_pos hnamed, if_pos hnamed]
        exact .record head (hnews.zipWith hslots)
      · rw [if_neg hnamed, if_neg hnamed]
        exact .record head hslots
  | null | scalar | foreign | member _ _ h | range | dict _ h | box h =>
      simp only [Value.rebuild, Value.isRebuilt, Value.withItems, Bool.and_false, Bool.false_eq_true,
        if_false]
      first
        | exact .null
        | exact .scalar _ _
        | exact .foreign _
        | exact .member _ _ h
        | exact .range _ _ _
        | exact .dict _ h
        | exact .box h

end Thaws

namespace Visit

variable {value value' : Value}

theorem matches_ofItems (h : Thaws p value value') {visits visits' : Visits}
    (hvisits : visits.Matches p visits')
    (hkept : (∃ head slots, value = .record head slots) → (ofItems value visits).replaced = false) :
    (ofItems value visits).Matches p (ofItems value' visits') := by
  rw [ofItems_replaced] at hkept
  refine ⟨?_, ?_, ?_⟩
  · rw [ofItems_stop, ofItems_stop]
    exact hvisits.stop_eq
  · intro hpass
    rw [ofItems_stop] at hpass
    rw [ofItems_value, ofItems_value]
    exact h.rebuild (hvisits.thaws hpass) (hvisits.replaced_of hpass) hkept
  · intro hpass hreplaced
    rw [ofItems_stop] at hpass
    rw [ofItems_replaced, Bool.and_eq_true] at hreplaced ⊢
    exact ⟨hvisits.replaced_of hpass hreplaced.1, h.isRebuilt_of hreplaced.2⟩

end Visit

/-! ## Records -/

theorem Class.fullName_thaw (base : Class) : (base.thaw p).fullName = base.fullName := by
  cases base <;> rfl

theorem Class.display_thaw (base : Class) : (base.thaw p).display = base.display := by
  cases base <;> rfl

namespace RecordStep

def thaw (p : String → Bool) : RecordStep → RecordStep
  | .descend field rules => .descend (field.thaw p) rules
  | other => other

theorem ofTarget_thaw (fields : List Field) (rules : RuleSet) (name : String) :
    ofTarget (fields.map (Field.thaw p)) rules name = (ofTarget fields rules name).map (thaw p) := by
  have hfind : (fields.map (Field.thaw p)).find? (fun field => field.name == name) =
      (fields.find? fun field => field.name == name).map (Field.thaw p) := by
    rw [List.find?_map]
    rfl
  unfold ofTarget
  rw [hfind]
  cases fields.find? fun field => field.name == name <;> rfl

theorem ofField_thaw (tokenize : String → RuleSet) (rules : RuleSet) (field : Field) :
    ofField tokenize rules (field.thaw p) = (ofField tokenize rules field).map (thaw p) := by
  have hrules : (field.thaw p).rules = field.rules := rfl
  simp only [ofField, hrules, List.map_cons]
  split
  · rfl
  · split <;> rfl

theorem all_thaw (tokenize : String → RuleSet) (fields : List Field) (rules : RuleSet) :
    all tokenize (fields.map (Field.thaw p)) rules = (all tokenize fields rules).map (thaw p) := by
  have htargets : ofTarget (fields.map (Field.thaw p)) rules =
      fun name => (ofTarget fields rules name).map (thaw p) :=
    funext (ofTarget_thaw fields rules)
  unfold all
  rw [htargets]
  simp only [List.map_append, List.map_cons, List.map_flatMap, List.flatMap_map, ofField_thaw]
  rfl

end RecordStep

namespace Visit

variable {d e : Bool → Annotation → Value → RuleSet → Visit} {tagKey typeName : String}
  {record record' : Value}

theorem classOf_step (writable : Bool) (record : Value) (step : RecordStep) :
    (Visit.step d tagKey typeName writable record step).value.classOf = record.classOf := by
  cases step with
  | readFields | readRules _ | unknown _ => rfl
  | descend target rules =>
      simp only [Visit.step, field]
      split
      · rfl
      · exact Value.classOf_withField _ _ _

theorem matches_field (h : Thaws p record record') (hrecord : record.classOf.isRecord = true)
    (target : Field) (rules : RuleSet)
    (hcontent : ∀ content content', record.fieldContent? target.name = some content →
      Thaws p content content' → (d true target.declared content rules).Matches p
        (e true (target.declared.thaw p) content' rules)) :
    (field d true record target rules).Matches p (field e true record' (target.thaw p) rules) := by
  have hname : (target.thaw p).name = target.name := rfl
  unfold field
  rw [hname]
  rcases h.fieldContent? hrecord target.name with
    ⟨hnone, hnone'⟩ | ⟨content, content', hsome, hsome', hthaws⟩
  · rw [hnone, hnone', h.classOf_eq hrecord, Class.fullName_thaw]
    exact matches_halt _ _ _
  · have hinner := hcontent content content' hsome hthaws
    rw [hsome, hsome']
    simp only [Bool.or_true]
    refine ⟨congrArg (Option.map (Stop.under target.name)) hinner.stop_eq, ?_, ?_⟩
    · intro hpass
      exact h.withField target.name (hinner.thaws (Option.map_eq_none_iff.1 hpass))
    · intro hpass hreplaced
      obtain ⟨hfixed, hwritten⟩ := Bool.and_eq_true_iff.1 hreplaced
      have hkept := hinner.replaced_of (Option.map_eq_none_iff.1 hpass) hwritten
      refine Bool.and_eq_true_iff.2 ⟨?_, hkept⟩
      cases hmutable : record.isMutable with
      | false => rfl
      | true => simp [h.isMutable_of hmutable] at hfixed

/-- Steps through a record match if the visit to each field does once the steps before it have passed. -/
theorem matches_steps {plan : List RecordStep} (h : Thaws p record record')
    (hrecord : record.classOf.isRecord = true)
    (hfields : ∀ before target rules rest content content',
      plan = before ++ .descend target rules :: rest →
      (steps d tagKey typeName true before record).stop = none →
      (steps d tagKey typeName true before record).value.fieldContent? target.name = some content →
      Thaws p content content' → (d true target.declared content rules).Matches p
        (e true (target.declared.thaw p) content' rules)) :
    (steps d tagKey typeName true plan record).Matches p
      (steps e tagKey typeName true (plan.map (RecordStep.thaw p)) record') := by
  induction plan generalizing record record' with
  | nil => exact matches_pass h
  | cons first plan ih =>
      have hfirst : (step d tagKey typeName true record first).Matches p
          (step e tagKey typeName true record' (first.thaw p)) := by
        cases first with
        | readFields | readRules _ => exact (matches_pass h).after _ _
        | unknown name => exact matches_halt _ _ _
        | descend target rules =>
            exact matches_field h hrecord target rules fun content content' hcontent hthaws =>
              hfields [] target rules plan content content' rfl rfl hcontent hthaws
      refine hfirst.andThen fun hpass => ih (hfirst.thaws hpass) ?_ ?_
      · rw [classOf_step]
        exact hrecord
      · intro before target rules rest content content' hplan hbefore hcontent hthaws
        refine hfields (first :: before) target rules rest content content' (by simp [hplan]) ?_ ?_
          hthaws
        · simpa [steps, andThen, hpass] using hbefore
        · simpa [steps, andThen, hpass] using hcontent

end Visit

end RuleCheck
