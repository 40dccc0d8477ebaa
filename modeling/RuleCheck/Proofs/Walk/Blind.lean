import RuleCheck.Proofs.Walk.Arrivals

/-! # Walks that do not see what is hidden

Two values may differ in hidden parts that a walk has no part in.  Step by step the walk does the same for both:
it is stopped alike, leaves values that are the same outside of the hidden parts, and leaves these as they were.
-/

namespace RuleCheck

open Value (SameOutside)

/-- Whether visits to two values do the same outside of hidden parts and leave these alone. -/
structure Visit.Blind (hidden : Hidden) (value other : Value) (first second : Visit) : Prop where
  stop : second.stop = first.stop
  replaced : second.replaced = first.replaced
  same : SameOutside hidden first.value second.value
  keeps : value.Keeps hidden first.value
  keeps_other : other.Keeps hidden second.value

/-- Whether visits to several values and as many others do the same outside of what is hidden of each. -/
structure Visits.Blind (hidden : Nat → Hidden) (items others : List Value) (first second : Visits) : Prop where
  stop : second.stop = first.stop
  replaced : second.replaced = first.replaced
  same : ∀ (i : Nat) (own new : Value), first.values[i]? = some own → second.values[i]? = some new →
    SameOutside (hidden i) own new
  keeps : ∀ (i : Nat) (item own : Value), items[i]? = some item → first.values[i]? = some own →
    item.Keeps (hidden i) own
  keeps_other : ∀ (i : Nat) (other new : Value), others[i]? = some other → second.values[i]? = some new →
    other.Keeps (hidden i) new

namespace Visit.Blind

variable {hidden : Hidden} {value other : Value} {first second : Visit}

theorem after (h : first.Blind hidden value other second) (events events' : List Event) :
    (first.after events).Blind hidden value other (second.after events') :=
  ⟨h.stop, h.replaced, h.same, h.keeps, h.keeps_other⟩

theorem still (hsame : SameOutside hidden value other) (stop : Option Stop) (events events' : List Event) :
    (Visit.mk value false events stop).Blind hidden value other (.mk other false events' stop) :=
  ⟨rfl, rfl, hsame, .refl hidden value, .refl hidden other⟩

theorem andThen {next last : Value → Visit} (h : first.Blind hidden value other second)
    (hnext : first.stop = none → (next first.value).Blind hidden first.value second.value (last second.value)) :
    (first.andThen next).Blind hidden value other (second.andThen last) := by
  cases hstop : first.stop with
  | some stop =>
      have hstop' : second.stop = some stop := h.stop.trans hstop
      simpa only [Visit.andThen, hstop, hstop'] using h
  | none =>
      have hstop' : second.stop = none := h.stop.trans hstop
      obtain ⟨hrest, hreplaced, hsame, hkeeps, hkeeps'⟩ := hnext hstop
      simp only [Visit.andThen, hstop, hstop']
      exact ⟨hrest, by rw [h.replaced, hreplaced], hsame, h.keeps.trans hkeeps, h.keeps_other.trans hkeeps'⟩

end Visit.Blind

namespace Visits.Blind

variable {hidden : Nat → Hidden} {item other : Value} {items others : List Value} {first second : Visit}

theorem cons {rest last : Visits} (h : first.Blind (hidden 0) item other second)
    (hrest : rest.Blind (fun i => hidden (i + 1)) items others last) :
    (Visits.cons first rest).Blind hidden (item :: items) (other :: others) (.cons second last) := by
  refine ⟨hrest.stop, ?_, ?_, ?_, ?_⟩
  · simp only [Visits.cons, h.replaced, hrest.replaced]
  · rintro (_ | i) own new hown hnew
    · cases hown
      cases hnew
      exact h.same
    · exact hrest.same i own new hown hnew
  · rintro (_ | i) old own hold hown
    · cases hold
      cases hown
      exact h.keeps
    · exact hrest.keeps i old own hold hown
  · rintro (_ | i) old new hold hnew
    · cases hold
      cases hnew
      exact h.keeps_other
    · exact hrest.keeps_other i old new hold hnew

theorem halted (h : first.Blind (hidden 0) item other second) (stop : Stop)
    (hrest : ∀ (i : Nat) (own new : Value), items[i]? = some own → others[i]? = some new →
      SameOutside (hidden (i + 1)) own new) :
    (Visits.halted first stop items).Blind hidden (item :: items) (other :: others)
      (.halted second stop others) := by
  refine ⟨rfl, h.replaced, ?_, ?_, ?_⟩
  · rintro (_ | i) own new hown hnew
    · cases hown
      cases hnew
      exact h.same
    · exact hrest i own new hown hnew
  · rintro (_ | i) old own hold hown
    · cases hold
      cases hown
      exact h.keeps
    · cases (show items[i]? = some old from hold).symm.trans hown
      exact .refl _ _
  · rintro (_ | i) old new hold hnew
    · cases hold
      cases hnew
      exact h.keeps_other
    · cases (show others[i]? = some old from hold).symm.trans hnew
      exact .refl _ _

theorem nil (hidden : Nat → Hidden) : Visits.none.Blind hidden [] [] .none :=
  ⟨rfl, rfl, by simp [Visits.none], by simp, by simp⟩

end Visits.Blind

namespace Walk

variable {walk : Walk} {levels : Nat}

theorem blind_items (writable : Bool) (annotate : Nat → Annotation) (remaining : RuleSet) (index : Nat)
    {hidden : Nat → Hidden} {items others : List Value} (hlength : others.length = items.length)
    (hsame : ∀ (i : Nat) (item other : Value), items[i]? = some item → others[i]? = some other →
      SameOutside (hidden i) item other)
    (hbelow : ∀ (i : Nat) next other,
      (reached (walk.visitAt levels) (items.mapIdx fun i item =>
        ⟨writable, annotate (index + i), item, remaining⟩))[i]? = some next →
      items[i]? = some next.value → others[i]? = some other → SameOutside (hidden i) next.value other →
      (walk.visitAt levels next).Blind (hidden i) next.value other
        (walk.visitAt levels { next with value := other })) :
    (Visits.ofItems (fun i item => walk.visit levels writable (annotate i) item remaining) index items).Blind
      hidden items others
      (Visits.ofItems (fun i item => walk.visit levels writable (annotate i) item remaining) index others) := by
  induction items generalizing index others hidden with
  | nil =>
      rw [List.length_eq_zero_iff.1 hlength]
      exact .nil hidden
  | cons item items ih =>
      obtain ⟨other, others, rfl⟩ := List.exists_cons_of_length_eq_add_one hlength
      rw [Visits.mapIdx_cons_from fun i item => Place.mk writable (annotate i) item remaining] at hbelow
      have hfirst := hbelow 0 _ other rfl rfl rfl (hsame 0 item other rfl rfl)
      have hothers := fun i => hsame (i + 1)
      simp only [visitAt] at hfirst
      simp only [Visits.ofItems]
      cases hstop : (walk.visit levels writable (annotate index) item remaining).stop with
      | some stop =>
          rw [hfirst.stop, hstop]
          exact .halted hfirst _ hothers
      | none =>
          have hpassed : (walk.visitAt levels ⟨writable, annotate index, item, remaining⟩).stop = none := hstop
          rw [hfirst.stop, hstop]
          refine .cons hfirst (ih (index + 1) (Nat.succ.inj hlength) hothers fun i next other hnext => ?_)
          apply hbelow (i + 1)
          simpa only [reached, Visit.onward_of_passed hpassed, List.getElem?_cons_succ] using hnext

/-- What stands in an entry whose visit was stopped is the same outside of what is hidden as well. -/
theorem blind_left {hidden : Hidden} {item other : Value} {first second : Visit}
    (h : first.Blind hidden item other second) (hfirst : Congruent item first.value)
    (hsecond : Congruent other second.value) (hsame : SameOutside hidden item other) (assigned : Bool) :
    Visit.Blind hidden item other
      { first with value := if assigned then item.graft first.value else first.value }
      { second with value := if assigned then other.graft second.value else second.value } := by
  cases assigned with
  | true =>
      exact ⟨h.stop, h.replaced, hsame.graft h.same hfirst hsecond, h.keeps.graft hfirst,
        h.keeps_other.graft hsecond⟩
  | false => exact h

theorem blind_entries (assigned writable : Bool) (declared : Annotation) (remaining : RuleSet)
    (hcongruent : ∀ item, Congruent item (walk.visit levels writable declared item remaining).value)
    {hidden : Nat → Hidden} {entries others : List (Value × Value)}
    (hkeys : others.map Prod.fst = entries.map Prod.fst)
    (hsame : ∀ (i : Nat) (item other : Value), (entries.map Prod.snd)[i]? = some item →
      (others.map Prod.snd)[i]? = some other → SameOutside (hidden i) item other)
    (hbelow : ∀ (i : Nat) next other,
      (reached (walk.visitAt levels) (entries.map fun entry =>
        ⟨writable, declared, entry.2, remaining⟩))[i]? = some next →
      (entries.map Prod.snd)[i]? = some next.value → (others.map Prod.snd)[i]? = some other →
      SameOutside (hidden i) next.value other →
      (walk.visitAt levels next).Blind (hidden i) next.value other
        (walk.visitAt levels { next with value := other })) :
    (Visits.ofEntries assigned (fun item => walk.visit levels writable declared item remaining) entries).Blind
      hidden (entries.map Prod.snd) (others.map Prod.snd)
      (Visits.ofEntries assigned (fun item => walk.visit levels writable declared item remaining) others) := by
  induction entries generalizing others hidden with
  | nil =>
      rw [List.map_eq_nil_iff.1 hkeys]
      exact .nil hidden
  | cons entry entries ih =>
      obtain ⟨key, item⟩ := entry
      obtain ⟨⟨own, other⟩, others, rfl⟩ : ∃ entry rest, others = entry :: rest := by
        cases others with
        | nil => cases hkeys
        | cons entry rest => exact ⟨entry, rest, rfl⟩
      obtain ⟨hkey, hrest⟩ := List.cons.inj hkeys
      have hown : own = key := hkey
      subst hown
      have hfirst := hbelow 0 _ other rfl rfl rfl (hsame 0 item other rfl rfl)
      have hothers := fun i => hsame (i + 1)
      simp only [visitAt] at hfirst
      simp only [Visits.ofEntries, List.map_cons]
      cases hstop : (walk.visit levels writable declared item remaining).stop with
      | some stop =>
          rw [hfirst.stop, hstop]
          exact .halted (blind_left hfirst (hcongruent item) (hcongruent other) (hsame 0 item other rfl rfl)
            assigned) _ hothers
      | none =>
          have hpassed : (walk.visitAt levels ⟨writable, declared, item, remaining⟩).stop = none := hstop
          rw [hfirst.stop, hstop]
          refine .cons hfirst (ih hrest hothers fun i next other hnext => ?_)
          apply hbelow (i + 1)
          simpa only [List.map_cons, reached, Visit.onward_of_passed hpassed, List.getElem?_cons_succ] using hnext

/-- Visits to the parts of two values, put together again, if no part is hidden as a whole. -/
theorem blind_of_parts {hidden : Hidden} {value other : Value} {first second : Visit} {visits later : Visits}
    (hstop : second.stop = first.stop) (hreplaced : second.replaced = first.replaced) {frame : Frame}
    (hframe : first.value.frame? = some frame) (hframe' : second.value.frame? = some frame)
    (hvalues : first.value.children = visits.values) (hvalues' : second.value.children = later.values)
    (hlength : visits.values.length = value.children.length)
    (hlength' : later.values.length = other.children.length)
    (hsame : other.children.length = value.children.length)
    (h : visits.Blind (fun i => hidden.below [i]) value.children other.children later)
    (hshown : ∀ index, ¬hidden [index]) : first.Blind hidden value other second := by
  refine ⟨hstop, hreplaced, .node hframe hframe' ?_ ?_, ?_, ?_⟩
  · rw [hvalues, hvalues', hlength, hlength', hsame]
  · rw [hvalues, hvalues']
    exact h.same
  · refine .of_children (by rw [hvalues, hlength]) (fun index hpart => absurd hpart (hshown index)) ?_
    rw [hvalues]
    exact h.keeps
  · refine .of_children (by rw [hvalues', hlength']) (fun index hpart => absurd hpart (hshown index)) ?_
    rw [hvalues']
    exact h.keeps_other

/-! ## Evaluators -/

/-- The visits that a visit goes on to do the same for other values, outside of what is hidden there. -/
def BlindBelow (walk : Walk) (levels : Nat) (place : Place) (hidden : Hidden) : Prop :=
  ∀ turn next path other, next ∈ walk.placesAt levels place turn → turn.numbers place.value = path →
    ¬hidden path → SameOutside (hidden.below path) next.value other →
    walk.HidesExcluded (hidden.below path) next.value →
    (walk.visitAt levels next).Blind (hidden.below path) next.value other
      (walk.visitAt levels { next with value := other })

section

variable {hidden : Hidden} {place : Place} {other : Value} {frame : Frame}

theorem blind_optional (hbelow : walk.BlindBelow levels place hidden)
    (hserved : walk.evaluator? place.resolved.category = some .optional) (hshown : ¬hidden [])
    (hsame : SameOutside hidden place.value other) (hhides : walk.HidesExcluded hidden place.value) :
    (Visit.optional (walk.visit levels) place.writable place.resolved place.value place.rules).Blind hidden
      place.value other
      (Visit.optional (walk.visit levels) place.writable place.resolved other place.rules) := by
  unfold Visit.optional
  rw [(hsame.sameNode hshown).alike.isNull]
  cases hnull : place.value.isNull with
  | true =>
      have hother := (hsame.sameNode hshown).alike.isNull.trans hnull
      rw [Value.eq_null_of_isNull hnull] at hsame ⊢
      rw [Value.eq_null_of_isNull hother] at hsame ⊢
      exact .still hsame _ _ _
  | false =>
      have hnext : { place with declared := place.resolved.element } ∈ walk.placesAt levels place .present := by
        simp [placesAt, hserved, Place.present, hnull]
      exact hbelow .present _ [] other hnext rfl hshown hsame hhides

theorem blind_reference (hbelow : walk.BlindBelow levels place hidden)
    (hserved : walk.evaluator? place.resolved.category = some .reference)
    (hcategory : place.resolved.category = .reference) (hframe : place.value.frame? = some frame)
    (hshown : ¬hidden []) (hsame : SameOutside hidden place.value other)
    (hhides : walk.HidesExcluded hidden place.value) :
    (Visit.reference (walk.visit levels) place.resolved place.value place.rules).Blind hidden place.value other
      (Visit.reference (walk.visit levels) place.resolved other place.rules) := by
  obtain ⟨content, hbox⟩ := Value.box_of_resolve (Value.isNull_of_frame hframe) hcategory
  have hno := hhides.shown hframe (by rw [hbox] at hframe; cases hframe; simp)
  have hsameFrame := hsame.frame_eq hshown
  rw [hbox] at hsame hhides hsameFrame ⊢
  cases other with
  | box inner =>
      have hchild (part : Value) : (Value.box part).children[0]? = some part := rfl
      have hinside := hsame.child hshown (hchild content) (hchild inner)
      have hnulls := (hinside.sameNode (hno 0)).alike.isNull
      cases hnull : content.isNull with
      | true =>
          rw [hnull] at hnulls
          rw [Value.eq_null_of_isNull hnull] at hsame ⊢
          rw [Value.eq_null_of_isNull hnulls] at hsame ⊢
          simp only [Visit.reference]
          split <;> exact .still hsame _ _ _
      | false =>
          rw [hnull] at hnulls
          have hnext : ⟨true, place.resolved.element, content, place.rules⟩ ∈
              walk.placesAt levels place .content := by
            simp only [placesAt, hserved, Place.content_of_box hbox hnull, List.mem_singleton]
          have hinner := hbelow .content _ [0] inner hnext rfl (hno 0) hinside (hhides.below (hchild content))
          rw [Visit.reference_present hnull, Visit.reference_present hnulls]
          exact blind_of_parts hinner.stop rfl rfl rfl rfl rfl rfl rfl rfl (.cons hinner (.nil _)) hno
  | _ => cases hsameFrame

/-- What visits make of the items of two lists, put together again. -/
theorem blind_rebuilt {value : Value} {declared : Annotation} (hcategory : (value.resolve declared).category = .list)
    (hcategory' : (other.resolve declared).category = .list) (hframe : value.frame? = some frame)
    (hframe' : other.frame? = some frame) (hrebuilt : other.isRebuilt = value.isRebuilt) {visits later : Visits}
    (hlength : visits.values.length = value.children.length)
    (hlength' : later.values.length = other.children.length)
    (hsame : other.children.length = value.children.length)
    (h : visits.Blind (fun i => hidden.below [i]) value.children other.children later)
    (hno : ∀ index, ¬hidden [index]) :
    (Visit.ofItems value visits).Blind hidden value other (.ofItems other later) := by
  obtain ⟨hvalues, hnode⟩ := Value.rebuild_of_node hframe hcategory visits.replaced hlength
  obtain ⟨hvalues', hnode'⟩ := Value.rebuild_of_node hframe' hcategory' later.replaced hlength'
  rw [← Visit.ofItems_value] at hvalues hnode hvalues' hnode'
  rw [h.replaced, hrebuilt] at hnode'
  refine blind_of_parts ?_ ?_ hnode hnode' hvalues hvalues' hlength hlength' hsame h hno
  · rw [Visit.ofItems_stop, Visit.ofItems_stop, h.stop]
  · rw [Visit.ofItems_replaced, Visit.ofItems_replaced, h.replaced, hrebuilt]

theorem blind_sequence (hbelow : walk.BlindBelow levels place hidden)
    (hserved : walk.evaluator? place.resolved.category = some .sequence)
    (hcategory : place.resolved.category = .list) (hframe : place.value.frame? = some frame)
    (hno : ∀ index, ¬hidden [index]) (hshown : ¬hidden []) (hsame : SameOutside hidden place.value other)
    (hhides : walk.HidesExcluded hidden place.value) :
    (Visit.sequence (walk.visit levels) place.writable place.resolved place.value place.rules).Blind hidden
      place.value other
      (Visit.sequence (walk.visit levels) place.writable place.resolved other place.rules) := by
  have hnode := hsame.sameNode hshown
  have hlength := hsame.length_eq hshown
  have hother : other.frame? = some frame := (hsame.frame_eq hshown).trans hframe
  have hcategory' : (other.resolve place.declared).category = .list :=
    (congrArg Resolved.category (hnode.alike.resolve_eq place.declared)).trans hcategory
  have hnull := Value.isNull_of_frame hframe
  have hitems := Value.items?_of_node hframe hcategory
  unfold Visit.sequence
  rw [hnode.alike.isNull, RuleSet.checkLength_congr hnode.alike.isNull hnode.length, hnode.isOversized, hnull,
    hitems, Value.items?_of_node hother hcategory']
  simp only [Bool.false_eq_true, if_false]
  cases hremaining : place.rules.checkLength place.value Visit.sequenceKey with
  | error stop => exact .still hsame _ _ _
  | ok remaining =>
      cases hoversized : place.value.isOversized with
      | true => exact .still hsame _ _ _
      | false =>
          simp only [hnode.itemsWritable, Bool.false_eq_true, if_false]
          have hplaces : place.items = place.value.children.mapIdx fun i item =>
              ⟨place.value.itemsWritable place.writable, place.resolved.item (0 + i), item, remaining⟩ := by
            simp [Place.items, hnull, hoversized, hremaining, hitems]
          have hvisits := blind_items (place.value.itemsWritable place.writable) place.resolved.item remaining 0
            hlength (fun i item new => hsame.child hshown) fun i next new hnext hitem hnew hinside => by
              rw [← hplaces] at hnext
              have hmem : next ∈ walk.placesAt levels place (.item i) := by
                simp only [placesAt, hserved]
                exact Option.mem_toList.2 hnext
              exact hbelow (.item i) next [i] new hmem rfl (hno i) hinside (hhides.below hitem)
          have hsizes (items : List Value) := Visits.length_ofItems (fun i item =>
            walk.visit levels (place.value.itemsWritable place.writable) (place.resolved.item i) item remaining)
              0 items
          exact blind_rebuilt hcategory hcategory' hframe hother hnode.isRebuilt (hsizes _) (hsizes _) hlength
            hvisits hno

theorem blind_mapping (hcongruent : ∀ writable declared item rules,
      Congruent item (walk.visit levels writable declared item rules).value)
    (hbelow : walk.BlindBelow levels place hidden)
    (hserved : walk.evaluator? place.resolved.category = some .mapping)
    (hcategory : place.resolved.category = .map) (hframe : place.value.frame? = some frame)
    (hshown : ¬hidden []) (hsame : SameOutside hidden place.value other)
    (hhides : walk.HidesExcluded hidden place.value) :
    (Visit.mapping (walk.visit levels) place.resolved place.value place.rules).Blind hidden place.value other
      (Visit.mapping (walk.visit levels) place.resolved other place.rules) := by
  have hnode := hsame.sameNode hshown
  have hlength := hsame.length_eq hshown
  have hnull := Value.isNull_of_frame hframe
  have hsameFrame := hsame.frame_eq hshown
  obtain ⟨kind, derived, entries, hmapping⟩ := Value.mapping_of_resolve hnull hcategory
  have hno := hhides.shown hframe (by rw [hmapping] at hframe; cases hframe; simp)
  unfold Visit.mapping
  rw [hnode.alike.isNull, RuleSet.checkLength_congr hnode.alike.isNull hnode.length, hnull]
  simp only [Bool.false_eq_true, if_false]
  cases hremaining : place.rules.checkLength place.value Visit.mappingKey with
  | error stop => exact .still hsame _ _ _
  | ok remaining =>
      have hplaces : place.entries = entries.map fun entry =>
          ⟨kind.isMutable, place.resolved.element, entry.2, remaining⟩ := by
        rw [hmapping] at hremaining
        simp only [Place.entries, hmapping, hremaining]
      rw [hmapping] at hsame hhides hlength hsameFrame ⊢
      cases other with
      | mapping kind' derived' others =>
          obtain ⟨rfl, rfl, hkeys⟩ := Frame.mapping.inj (Option.some.inj hsameFrame)
          have hvisits := blind_entries kind'.isMutable kind'.isMutable place.resolved.element remaining
            (fun item => hcongruent _ _ item _) hkeys (fun i item new => hsame.child hshown)
            fun i next new hnext hitem hnew hinside => by
              rw [← hplaces] at hnext
              have hmem : next ∈ walk.placesAt levels place (.entry i) := by
                simp only [placesAt, hserved]
                exact Option.mem_toList.2 hnext
              exact hbelow (.entry i) next [i] new hmem rfl (hno i) hinside (hhides.below hitem)
          have hsizes (entries : List (Value × Value)) := Visits.length_ofEntries kind'.isMutable (fun item =>
            walk.visit levels kind'.isMutable place.resolved.element item remaining) entries
          have hchildren (entries : List (Value × Value)) :
              (Value.mapping kind' derived' entries).children.length = entries.length := List.length_map _
          obtain ⟨hfirst, hfirsts⟩ := @Value.withEntries_of_node kind' derived' entries _ (hsizes entries)
          obtain ⟨hsecond, hseconds⟩ := @Value.withEntries_of_node kind' derived' others _ (hsizes others)
          rw [hkeys] at hsecond
          exact blind_of_parts hvisits.stop rfl hfirst hsecond hfirsts hseconds
            ((hsizes entries).trans (hchildren entries).symm) ((hsizes others).trans (hchildren others).symm)
            hlength hvisits hno
      | _ => cases hsameFrame

theorem blind_withField {record other : Value} (hframe : record.frame? = some frame) (hshown : ¬hidden [])
    (hsame : SameOutside hidden record other) {name : String} {index : Nat}
    (hindex : frame.fieldIndex? name = some index) (hno : ¬hidden [index]) {own new : Value}
    (hown : record.children[index]? = some own) (hnew : other.children[index]? = some new)
    {first second : Visit} (h : first.Blind (hidden.below [index]) own new second) (kept : Bool)
    (report : Option Stop → Option Stop) (events events' : List Event) :
    Visit.Blind hidden record other
      ⟨record.withField name first.value, kept && first.replaced, events, report first.stop⟩
      ⟨other.withField name second.value, kept && second.replaced, events', report second.stop⟩ := by
  have hother : other.frame? = some frame := (hsame.frame_eq hshown).trans hframe
  obtain ⟨hfirst, hfirsts⟩ := Value.withField_of_node hframe hindex first.value
  obtain ⟨hsecond, hseconds⟩ := Value.withField_of_node hother hindex second.value
  refine ⟨by rw [h.stop], by rw [h.replaced], .node hfirst hsecond ?_ ?_, ?_, ?_⟩
  · rw [hfirsts, hseconds, List.length_set, List.length_set, hsame.length_eq hshown]
  · intro i part part' hpart hpart'
    rw [hfirsts] at hpart
    rw [hseconds] at hpart'
    rcases Value.getElem?_of_set hpart with ⟨rfl, rfl⟩ | ⟨hne, hpart⟩
    · rcases Value.getElem?_of_set hpart' with ⟨-, rfl⟩ | ⟨hne, -⟩
      · exact h.same
      · exact absurd rfl hne
    · rcases Value.getElem?_of_set hpart' with ⟨hindex, -⟩ | ⟨-, hpart'⟩
      · exact absurd hindex hne
      · exact hsame.child hshown hpart hpart'
  · exact .of_set (hfirst.trans hframe.symm) hno hown hfirsts h.keeps
  · exact .of_set (hsecond.trans hother.symm) hno hnew hseconds h.keeps_other

theorem blind_step {typeName : String} {writable : Bool} {step : RecordStep} {record other : Value}
    (hframe : record.frame? = some frame) (hshown : ¬hidden []) (hsame : SameOutside hidden record other)
    (hincluded : ∀ field rules, step = .descend field rules → ∀ index,
      frame.fieldIndex? field.name = some index → ¬hidden [index])
    (hbelow : ∀ field rules next index new, step = .descend field rules →
      step.place? writable record = some next → frame.fieldIndex? field.name = some index → ¬hidden [index] →
      record.children[index]? = some next.value → SameOutside (hidden.below [index]) next.value new →
      (walk.visitAt levels next).Blind (hidden.below [index]) next.value new
        (walk.visitAt levels { next with value := new })) :
    (Visit.step (walk.visit levels) walk.tagKey typeName writable record step).Blind hidden record other
      (Visit.step (walk.visit levels) walk.tagKey typeName writable other step) := by
  have hnode := hsame.sameNode hshown
  have hother : other.frame? = some frame := (hsame.frame_eq hshown).trans hframe
  cases step with
  | readFields | readRules => exact (Visit.Blind.still hsame _ _ _).after _ _
  | unknown => exact .still hsame _ _ _
  | descend field rules =>
      have hcontent := Value.fieldContent?_of_node hframe field.name
      have hcontent' := Value.fieldContent?_of_node hother field.name
      simp only [Visit.step, Visit.field]
      cases hindex : frame.fieldIndex? field.name with
      | none =>
          rw [hindex] at hcontent hcontent'
          simp only [hcontent, hcontent', Option.bind_none, hnode.classOf]
          exact .still hsame _ _ _
      | some index =>
          rw [hindex] at hcontent hcontent'
          cases hown : record.children[index]? with
          | none =>
              have hnew : other.children[index]? = none := by
                rw [List.getElem?_eq_none_iff] at hown ⊢
                rwa [hsame.length_eq hshown]
              simp only [hcontent, hcontent', Option.bind_some, hown, hnew, hnode.classOf]
              exact .still hsame _ _ _
          | some own =>
              obtain ⟨new, hnew⟩ := Shaped.exists_getElem? (hsame.length_eq hshown) hown
              have hno := hincluded field rules rfl index hindex
              have hplace : RecordStep.place? writable record (.descend field rules) =
                  some ⟨record.isMutable || writable, field.declared, own, rules⟩ := by
                simp only [RecordStep.place?, hcontent, Option.bind_some, hown, Option.map_some]
              have hinner := hbelow field rules _ index new rfl hplace hindex hno hown (hsame.child hshown hown hnew)
              simp only [visitAt] at hinner
              simp only [hcontent, hcontent', Option.bind_some, hown, hnew, hnode.isMutable]
              exact blind_withField hframe hshown hsame hindex hno hown hnew hinner _
                (Option.map (Stop.under field.name)) _ _

theorem blind_steps {typeName : String} {writable : Bool} {plan : List RecordStep} {record other : Value}
    (hframe : record.frame? = some frame) (hshown : ¬hidden []) (hsame : SameOutside hidden record other)
    (hhides : walk.HidesExcluded hidden record)
    (hincluded : ∀ field rules, .descend field rules ∈ plan → ∀ index,
      frame.fieldIndex? field.name = some index → ¬hidden [index])
    (hbelow : ∀ name next index new, next ∈ walk.fieldPlaces levels typeName writable name plan record →
      frame.fieldIndex? name = some index → ¬hidden [index] → SameOutside (hidden.below [index]) next.value new →
      walk.HidesExcluded (hidden.below [index]) next.value →
      (walk.visitAt levels next).Blind (hidden.below [index]) next.value new
        (walk.visitAt levels { next with value := new })) :
    (Visit.steps (walk.visit levels) walk.tagKey typeName writable plan record).Blind hidden record other
      (Visit.steps (walk.visit levels) walk.tagKey typeName writable plan other) := by
  induction plan generalizing record other with
  | nil => exact .still hsame _ _ _
  | cons step plan ih =>
      have hfirst : (Visit.step (walk.visit levels) walk.tagKey typeName writable record step).Blind hidden record
          other (Visit.step (walk.visit levels) walk.tagKey typeName writable other step) := by
        refine blind_step hframe hshown hsame (fun field rules h => hincluded field rules (by simp [h])) ?_
        rintro field rules next index new rfl hplace hindex hno hown hinside
        refine hbelow field.name next index new ?_ hindex hno hinside (hhides.below hown)
        simp [fieldPlaces, RecordStep.goesTo, hplace]
      -- the record is another one after the step, but its frame and what is hidden of it are the same
      refine hfirst.andThen fun hpass => ih ?_ hfirst.same (hhides.keeps hfirst.keeps)
        (fun field rules h => hincluded field rules (by simp [h])) fun name next index new hnext => ?_
      · rw [frame?_step, hframe]
      · apply hbelow name
        rw [fieldPlaces, Visit.onward_of_passed hpass]
        exact List.mem_append_right _ hnext

theorem shown_of_mem_all (hdistinct : walk.DistinctFields) (hcategory : place.resolved.category = .record)
    (hframe : place.value.frame? = some frame) (hdiscreet : place.Discreet hidden)
    (hhides : walk.HidesExcluded hidden place.value) {view : RecordView}
    (hview : walk.view? place.value.classOf = some view) {field : Field} {rules : RuleSet}
    (hmem : .descend field rules ∈ RecordStep.all walk.tokenize view.fields place.rules) {index : Nat}
    (hindex : frame.fieldIndex? field.name = some index) : ¬hidden [index] := by
  intro hpart
  rcases RecordStep.included_of_mem_all hmem with htarget | hincluded
  · exact hdiscreet.targets hcategory field.name htarget index (by rw [hframe]; exact hindex) hpart
  · -- names are distinct, so the field that is not excluded would be the hidden one
    obtain ⟨head, names, name, hrecord, hname, own, hown, other, hother, rfl, hexcluded⟩ := hhides.frame_eq hpart
    rw [hframe, Option.some.injEq] at hrecord
    subst hrecord
    have hsame : other.name = field.name := by
      obtain ⟨hlt, hfound, -⟩ := List.findIdx?_eq_some_iff_getElem.1 hindex
      rw [List.getElem?_eq_getElem hlt, Option.some.injEq] at hname
      rw [← hname]
      exact beq_iff_eq.1 hfound
    have hclass : place.value.classOf = .record head := by
      generalize place.value = value at hframe
      cases value <;> first | (cases hframe; done) | (cases hframe; rfl)
    rw [hclass] at hview
    cases hview.symm.trans hown
    have hfield := (RecordStep.of_descend_mem_all hmem).1
    rw [List.inj_on_of_nodup_map (hdistinct _ _ hview) hother hfield hsame, hincluded] at hexcluded
    cases hexcluded

/-- Whether anything is asked of a record as a whole, and what comes out, is not a matter of hidden parts. -/
theorem zero_alike (hcategory : place.resolved.category = .record) (hframe : place.value.frame? = some frame)
    (hdiscreet : place.Discreet hidden) (hshown : ¬hidden []) (hsame : SameOutside hidden place.value other)
    (hhides : walk.HidesExcluded hidden place.value) :
    (place.rules.required && other.zeroFails) = (place.rules.required && place.value.zeroFails) ∧
      (place.rules.required && other.isZero) = (place.rules.required && place.value.isZero) := by
  rcases Value.record_of_resolve (Value.isNull_of_frame hframe) hcategory with
    ⟨content, hbox⟩ | ⟨head, slots, hrecord⟩
  · -- of a box that is taken for a record only counts whether it is empty, and its content is not hidden
    have hno := hhides.shown hframe (by rw [hbox] at hframe; cases hframe; simp)
    have hsameFrame := hsame.frame_eq hshown
    rw [hbox] at hsame hsameFrame ⊢
    cases other with
    | box inner =>
        have hinside := hsame.child hshown (show (Value.box content).children[0]? = some content from rfl)
          (show (Value.box inner).children[0]? = some inner from rfl)
        have hnulls := (hinside.sameNode (hno 0)).alike.isNull
        simp only [Value.zeroFails, Value.isOversized, Value.isZero, Value.isZeroContent, hnulls, and_self]
    | _ => cases hsameFrame
  · have hrequired := hdiscreet.required hcategory head (slots.map Prod.fst) (by rw [hrecord]; rfl)
    simp only [hrequired, Bool.false_and, and_self]

theorem blind_record (hdistinct : walk.DistinctFields) (hhookless : walk.Hookless)
    (hbelow : walk.BlindBelow levels place hidden)
    (hserved : walk.evaluator? place.resolved.category = some .record)
    (hcategory : place.resolved.category = .record) (hframe : place.value.frame? = some frame)
    (hdiscreet : place.Discreet hidden) (hshown : ¬hidden []) (hsame : SameOutside hidden place.value other)
    (hhides : walk.HidesExcluded hidden place.value) :
    (Visit.record (walk.visit levels) walk.tokenize walk.tagKey walk.context walk.view? place.writable place.value
        place.rules).Blind hidden place.value other
      (Visit.record (walk.visit levels) walk.tokenize walk.tagKey walk.context walk.view? place.writable other
        place.rules) := by
  have hnode := hsame.sameNode hshown
  have hnull := Value.isNull_of_frame hframe
  obtain ⟨hfails, hzero⟩ := zero_alike hcategory hframe hdiscreet hshown hsame hhides
  unfold Visit.record
  rw [hnode.alike.isNull, hnull, hfails, hzero, hnode.classOf]
  simp only [Bool.false_eq_true, if_false]
  cases hlong : place.rules.required && place.value.zeroFails with
  | true => exact (Visit.Blind.still hsame _ _ _).after _ _
  | false =>
      cases hempty : place.rules.required && place.value.isZero with
      | true => exact (Visit.Blind.still hsame _ _ _).after _ _
      | false =>
          cases hview : walk.view? place.value.classOf with
          | none => exact (Visit.Blind.still hsame _ _ _).after _ _
          | some view =>
              have hentered : walk.entered? place = some view := by
                simp only [entered?, hnull, Bool.and_or_distrib_left, hlong, hempty, Bool.or_self, hview,
                  Bool.false_eq_true, if_false]
              have hhooks : Visit.hooks view walk.context = Visit.pass :=
                funext fun record => hooks_of_hookless (hhookless _ _ hview) walk.context record
              refine Visit.Blind.after ?_ _ _
              unfold Visit.presentRecord
              rw [hhooks]
              have hsteps := @blind_steps walk levels hidden frame view.typeName place.writable
                (RecordStep.all walk.tokenize view.fields place.rules) place.value other hframe hshown hsame hhides
                (fun field rules hmem index =>
                  shown_of_mem_all hdistinct hcategory hframe hdiscreet hhides hview hmem)
                fun name next index new hnext hindex hno hinside hhidden => by
                  refine hbelow (.field name) next [index] new ?_ ?_ hno hinside hhidden
                  · simpa only [placesAt, hserved, hentered] using hnext
                  · simp only [Turn.numbers, hframe, Option.bind_some, hindex, Option.toList_some]
              exact hsteps.andThen fun _ => .still hsteps.same _ _ _

end

section

variable (hmatched : walk.Matched) (hdistinct : walk.DistinctFields) (hhookless : walk.Hookless)

include hmatched hdistinct hhookless

/--
For another value that is the same outside of hidden parts, a walk that these are no part of does the same: it is
stopped alike, and what it leaves is the same outside of them.  The hidden parts stay as they are.
-/
theorem blind_visitAt (levels : Nat) (place : Place) {other : Value} {hidden : Hidden} (hshown : ¬hidden [])
    (hsame : SameOutside hidden place.value other) (hhides : walk.HidesExcluded hidden place.value)
    (hdiscreet : walk.Discreet levels place hidden) :
    (walk.visitAt levels place).Blind hidden place.value other
      (walk.visitAt levels { place with value := other }) := by
  induction levels generalizing place other hidden with
  | zero => exact .still hsame _ _ _
  | succ levels ih =>
      cases hframe : place.value.frame? with
      | none =>
          -- a value without parts has nothing hidden, so the other one is the same
          obtain rfl := hsame.eq_of_atom hshown hframe
          exact ⟨rfl, rfl, .refl hidden _, hhides.keeps_of_atom hframe, hhides.keeps_of_atom hframe⟩
      | some frame =>
          have hbelow : walk.BlindBelow levels place hidden := by
            rintro turn next path new hnext rfl hno hinside hhidden
            refine ih next ?_ hinside hhidden (hdiscreet.inside hnext)
            simpa only [Hidden.below, List.append_nil] using hno
          have hresolved : Place.resolved { place with value := other } = place.resolved :=
            (hsame.sameNode hshown).alike.resolve_eq place.declared
          cases hserved : walk.evaluator? place.resolved.category with
          | none =>
              rw [visitAt_of_unserved hserved, visitAt_of_unserved (by rw [hresolved, hserved])]
              exact (Visit.Blind.still hsame _ _ _).after _ _
          | some evaluator =>
              have hcategory : place.resolved.category = evaluator.category := (hmatched _ _ hserved).symm
              rw [visitAt_of_served hserved, visitAt_of_served (by rw [hresolved, hserved]), hresolved]
              cases evaluator with
              | optional => exact blind_optional hbelow hserved hshown hsame hhides
              | reference => exact blind_reference hbelow hserved hcategory hframe hshown hsame hhides
              | scalar kind =>
                  rcases Value.scalar_of_resolve hcategory with hvalue | ⟨origin, content, hvalue, -⟩ <;>
                    (rw [hvalue] at hframe; cases hframe)
              | record =>
                  exact blind_record hdistinct hhookless hbelow hserved hcategory hframe hdiscreet.own hshown hsame
                    hhides
              | sequence =>
                  exact blind_sequence hbelow hserved hcategory hframe (hdiscreet.own.items hcategory) hshown hsame
                    hhides
              | mapping =>
                  refine blind_mapping (fun writable declared item rules => ?_) hbelow hserved hcategory hframe
                    hshown hsame hhides
                  exact (shaped_visitAt hmatched hdistinct hhookless.assignsNothing levels
                    ⟨writable, declared, item, rules⟩).congruent

end

end Walk

end RuleCheck
