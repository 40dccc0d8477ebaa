import RuleCheck.Proofs.Visit.Lengths
import RuleCheck.Proofs.Walk.Coming

/-! # Redirected rules do not redirect again

Every place that a walk comes to has its rules from the place before it: whole below an optional layer or a box,
without the comparisons of the length below a sequence or mapping, without the redirections in a field that they
are redirected or handed on to, or it has the rules of a declared field.  So the places are listed with the way
their rules came, and along a way that takes no rules of fields the tokens that arrive can be told from the ways
alone: behind a redirection none redirects, and all others are still there but for the lengths.
-/

namespace RuleCheck

/-- How a place has its rules from the place that its visit is called from. -/
inductive Handing where
  /-- Below an optional layer. -/
  | present
  /-- Inside a box. -/
  | content
  /-- Inside a sequence. -/
  | item
  /-- Inside a mapping. -/
  | entry
  /-- In a field that a token redirects the rules to. -/
  | redirected
  /-- In a field marked `main`. -/
  | main
  /-- In a field with its own rules. -/
  | own
  deriving DecidableEq, Repr

namespace Handing

def isLayer : Handing → Bool
  | present | content | item | entry => true
  | redirected | main | own => false

def forwards : Handing → Bool
  | redirected | main => true
  | present | content | item | entry | own => false

theorem isLayer_iff (handing : Handing) :
    handing.isLayer = true ↔ handing.forwards = false ∧ handing ≠ .own := by
  cases handing <;> decide

def lets (token : String) : Handing → Bool
  | present | content | own => true
  | item => !Comparison.isOf Visit.sequenceKey token
  | entry => !Comparison.isOf Visit.mappingKey token
  | redirected | main => !Text.startsWith token RuleSet.redirectFront

/-- Whether a token is a comparison of the length of a sequence or mapping on the way. -/
def consumed (handings : List Handing) (token : String) : Bool :=
  (handings.contains item && Comparison.isOf Visit.sequenceKey token) ||
    (handings.contains entry && Comparison.isOf Visit.mappingKey token)

theorem all_lets (handings : List Handing) (token : String) :
    handings.all (lets token) =
      ((!handings.any forwards || !Text.startsWith token RuleSet.redirectFront) &&
        !consumed handings token) := by
  induction handings with
  | nil => rfl
  | cons handing handings ih =>
      rw [List.all_cons, ih, List.any_cons, consumed, consumed, List.contains_cons, List.contains_cons]
      cases handing <;> simp only [lets, forwards] <;>
        generalize handings.any forwards = passed, Text.startsWith token _ = redirects,
          handings.contains item = inSequence, handings.contains entry = inMapping,
          Comparison.isOf Visit.sequenceKey token = ofSequence,
          Comparison.isOf Visit.mappingKey token = ofMapping <;>
        decide +revert

end Handing

namespace RecordStep

/-- The steps for a declared field, each with the way that rules come there. -/
def ofFieldHanded (tokenize : String → RuleSet) (rules : RuleSet) (field : Field) :
    List (Handing × RecordStep) :=
  let own := tokenize field.rules
  (.own, .readRules field.rules) ::
    if own.excluded then []
    else if own.has RuleSet.mainToken then
      [(.main, .descend field (forwarded rules)), (.own, .descend field own)]
    else [(.own, .descend field own)]

/-- The steps of a visit to a record, each with the way that rules come there. -/
def allHanded (tokenize : String → RuleSet) (fields : List Field) (rules : RuleSet) :
    List (Handing × RecordStep) :=
  (rules.targets.flatMap (ofTarget fields rules)).map (Prod.mk .redirected) ++
    (.own, .readFields) :: fields.flatMap (ofFieldHanded tokenize rules)

theorem map_ofFieldHanded (tokenize : String → RuleSet) (rules : RuleSet) (field : Field) :
    (ofFieldHanded tokenize rules field).map Prod.snd = ofField tokenize rules field := by
  unfold ofFieldHanded ofField
  by_cases hexcluded : (tokenize field.rules).excluded = true
  · simp [hexcluded]
  · by_cases hmain : (tokenize field.rules).has RuleSet.mainToken = true
    · simp [hexcluded, hmain]
    · simp [hexcluded, hmain]

theorem map_allHanded (tokenize : String → RuleSet) (fields : List Field) (rules : RuleSet) :
    (allHanded tokenize fields rules).map Prod.snd = all tokenize fields rules := by
  have htargets (plan : List RecordStep) : (plan.map (Prod.mk Handing.redirected)).map Prod.snd = plan := by
    rw [List.map_map]
    exact List.map_id plan
  unfold allHanded all
  rw [List.map_append, htargets, List.map_cons, List.map_flatMap]
  simp only [map_ofFieldHanded]

end RecordStep

namespace Walk

/-! ## The places below, with the way of their rules -/

/-- The places that steps of a visit to a record come to, each with the way of its rules. -/
def handedSteps (walk : Walk) (levels : Nat) (typeName : String) (writable : Bool) :
    List (Handing × RecordStep) → Value → List (Handing × Place)
  | [], _ => []
  | (handing, step) :: plan, record =>
    (step.place? writable record).toList.map (Prod.mk handing) ++
      (Visit.step (walk.visit levels) walk.tagKey typeName writable record step).onward
        (handedSteps walk levels typeName writable plan)

/-- The places that a visit to a place comes to, each with the way of its rules. -/
def handedOn (walk : Walk) (levels : Nat) (place : Place) : List (Handing × Place) :=
  match walk.evaluator? place.resolved.category with
  | some .optional => place.present.map (Prod.mk .present)
  | some .reference => place.content.map (Prod.mk .content)
  | some .sequence => (reached (walk.visitAt levels) place.items).map (Prod.mk .item)
  | some .mapping => (reached (walk.visitAt levels) place.entries).map (Prod.mk .entry)
  | some .record =>
    match walk.entered? place with
    | some view =>
      walk.handedSteps levels view.typeName place.writable
        (RecordStep.allHanded walk.tokenize view.fields place.rules) place.value
    | none => []
  | some (.scalar _) | none => []

variable {walk : Walk} {levels rest : Nat} {place next last : Place} {handing : Handing}
  {handings : List Handing}

theorem map_handedSteps (typeName : String) (writable : Bool) (plan : List (Handing × RecordStep))
    (record : Value) :
    (walk.handedSteps levels typeName writable plan record).map Prod.snd =
      walk.stepPlaces levels typeName writable (plan.map Prod.snd) record := by
  induction plan generalizing record with
  | nil => rfl
  | cons first plan ih =>
      obtain ⟨handing, step⟩ := first
      simp only [handedSteps, stepPlaces, List.map_cons, List.map_append, Visit.map_onward, ih, List.map_map]
      congr 1
      exact List.map_id _

/-- Nothing but the ways is added to the places that a visit comes to. -/
theorem map_handedOn (levels : Nat) (place : Place) :
    (walk.handedOn levels place).map Prod.snd = walk.placesBelow levels place := by
  have hsame (handing : Handing) (places : List Place) :
      (places.map (Prod.mk handing)).map Prod.snd = places := by
    rw [List.map_map]
    exact List.map_id places
  unfold handedOn placesBelow
  cases walk.evaluator? place.resolved.category with
  | none => rfl
  | some evaluator =>
      cases evaluator with
      | optional => exact hsame _ _
      | reference => exact hsame _ _
      | scalar kind => rfl
      | record =>
          cases walk.entered? place with
          | none => rfl
          | some view =>
              simp only [map_handedSteps, RecordStep.map_allHanded]
      | sequence => exact hsame _ _
      | mapping => exact hsame _ _

/-! ## What a way does to the rules -/

inductive HandsOn (walk : Walk) (place : Place) : Handing → Place → Prop
  | layer {handing : Handing} {next : Place} (hlayer : handing.isLayer = true)
      (hrules : next.rules = place.rules.keep fun token => handing.lets token) :
      HandsOn walk place handing next
  | redirected {view : RecordView} {name : String} {field : Field} {next : Place}
      (hview : walk.view? place.value.classOf = some view) (hname : name ∈ place.rules.targets)
      (hfield : (view.fields.find? fun field => field.name == name) = some field)
      (hdeclared : next.declared = field.declared)
      (hrules : next.rules = place.rules.keep fun token => Handing.redirected.lets token) :
      HandsOn walk place .redirected next
  | main {view : RecordView} {field : Field} {next : Place}
      (hview : walk.view? place.value.classOf = some view) (hfield : field ∈ view.fields)
      (hmain : (walk.tokenize field.rules).has RuleSet.mainToken = true)
      (hdeclared : next.declared = field.declared)
      (hrules : next.rules = place.rules.keep fun token => Handing.main.lets token) :
      HandsOn walk place .main next
  | own {view : RecordView} {field : Field} {next : Place}
      (hview : walk.view? place.value.classOf = some view) (hfield : field ∈ view.fields)
      (hdeclared : next.declared = field.declared) (hrules : next.rules = walk.tokenize field.rules) :
      HandsOn walk place .own next

theorem handed_of_mem_handedSteps {typeName : String} {writable : Bool}
    {plan : List (Handing × RecordStep)} {record : Value}
    (h : (handing, next) ∈ walk.handedSteps levels typeName writable plan record) :
    ∃ field rules, (handing, .descend field rules) ∈ plan ∧ next.declared = field.declared ∧
      next.rules = rules := by
  induction plan generalizing record with
  | nil => cases h
  | cons first plan ih =>
      obtain ⟨way, step⟩ := first
      simp only [handedSteps, List.mem_append, List.mem_map, Option.mem_toList] at h
      rcases h with ⟨place, hplace, hsame⟩ | hlater
      · obtain ⟨rfl, rfl⟩ : way = handing ∧ place = next := by simpa using hsame
        cases step with
        | descend field rules =>
            obtain ⟨content, -, rfl⟩ := Option.map_eq_some_iff.1 hplace
            exact ⟨field, rules, List.mem_cons_self, rfl, rfl⟩
        | readFields | readRules | unknown => cases hplace
      · unfold Visit.onward at hlater
        split at hlater
        · obtain ⟨field, rules, hmem, hnext⟩ := ih hlater
          exact ⟨field, rules, List.mem_cons_of_mem _ hmem, hnext⟩
        · cases hlater

theorem handsOn_of_mem_allHanded {view : RecordView} {field : Field} {rules : RuleSet}
    (hview : walk.view? place.value.classOf = some view)
    (h : (handing, .descend field rules) ∈
      RecordStep.allHanded walk.tokenize view.fields place.rules)
    (hdeclared : next.declared = field.declared) (hrules : next.rules = rules) :
    walk.HandsOn place handing next := by
  unfold RecordStep.allHanded at h
  rcases List.mem_append.1 h with htarget | hfield
  · simp only [List.mem_map, List.mem_flatMap, RecordStep.ofTarget, List.mem_cons, List.not_mem_nil,
      or_false] at htarget
    obtain ⟨step, ⟨name, hname, hstep⟩, hsame⟩ := htarget
    obtain ⟨rfl, rfl⟩ : Handing.redirected = handing ∧ step = .descend field rules := by simpa using hsame
    rcases hstep with hread | hstep
    · cases hread
    · cases hfound : view.fields.find? fun field => field.name == name with
      | none =>
          rw [hfound] at hstep
          cases hstep
      | some found =>
          rw [hfound] at hstep
          cases hstep
          exact .redirected hview hname hfound hdeclared hrules
  · simp only [List.mem_cons, Prod.mk.injEq, reduceCtorEq, and_false, false_or, List.mem_flatMap,
      RecordStep.ofFieldHanded] at hfield
    obtain ⟨other, hother, hfield⟩ := hfield
    by_cases hexcluded : (walk.tokenize other.rules).excluded = true
    · simp [hexcluded] at hfield
    · rw [if_neg hexcluded] at hfield
      by_cases hmain : (walk.tokenize other.rules).has RuleSet.mainToken = true
      · rw [if_pos hmain, List.mem_cons, List.mem_singleton, Prod.mk.injEq, Prod.mk.injEq] at hfield
        rcases hfield with ⟨rfl, hstep⟩ | ⟨rfl, hstep⟩
        · cases hstep
          exact .main hview hother hmain hdeclared hrules
        · cases hstep
          exact .own hview hother hdeclared hrules
      · rw [if_neg hmain, List.mem_singleton, Prod.mk.injEq] at hfield
        obtain ⟨rfl, hstep⟩ := hfield
        cases hstep
        exact .own hview hother hdeclared hrules

theorem rules_of_mem_items (h : next ∈ place.items) :
    next.rules = place.rules.keep fun token => Handing.item.lets token := by
  obtain ⟨remaining, items, henters, i, item, -, rfl⟩ := Place.exists_of_mem_items h
  exact (RuleSet.checkLength_eq_ok henters.checkLength).2

theorem rules_of_mem_entries (h : next ∈ place.entries) :
    next.rules = place.rules.keep fun token => Handing.entry.lets token := by
  obtain ⟨remaining, kind, derived, entries, henters, entry, -, rfl⟩ := Place.exists_of_mem_entries h
  exact (RuleSet.checkLength_eq_ok henters.checkLength).2

theorem handsOn_of_mem (h : (handing, next) ∈ walk.handedOn levels place) :
    walk.HandsOn place handing next := by
  have hwhole : place.rules = place.rules.keep fun _ => true := by
    simp [RuleSet.keep]
  unfold handedOn at h
  cases hserved : walk.evaluator? place.resolved.category with
  | none =>
      rw [hserved] at h
      cases h
  | some evaluator =>
      rw [hserved] at h
      cases evaluator with
      | scalar kind => cases h
      | optional =>
          obtain ⟨found, hfound, hsame⟩ := List.mem_map.1 h
          cases hsame
          obtain ⟨-, rfl⟩ := Place.mem_present.1 hfound
          exact .layer rfl hwhole
      | reference =>
          obtain ⟨found, hfound, hsame⟩ := List.mem_map.1 h
          cases hsame
          obtain ⟨inner, -, -, rfl⟩ := Place.mem_content.1 hfound
          exact .layer rfl hwhole
      | sequence =>
          obtain ⟨found, hfound, hsame⟩ := List.mem_map.1 h
          cases hsame
          obtain ⟨index, hindex, -⟩ := exists_of_mem_reached hfound
          exact .layer rfl (rules_of_mem_items (List.mem_of_getElem? hindex))
      | mapping =>
          obtain ⟨found, hfound, hsame⟩ := List.mem_map.1 h
          cases hsame
          obtain ⟨index, hindex, -⟩ := exists_of_mem_reached hfound
          exact .layer rfl (rules_of_mem_entries (List.mem_of_getElem? hindex))
      | record =>
          cases hentered : walk.entered? place with
          | none =>
              simp only [hentered] at h
              cases h
          | some view =>
              simp only [hentered] at h
              obtain ⟨field, rules, hstep, hdeclared, hrules⟩ := handed_of_mem_handedSteps h
              exact handsOn_of_mem_allHanded (view_of_entered hentered) hstep hdeclared hrules

namespace HandsOn

/-- The rules of a record or container come through, but for the tokens that its way takes out. -/
theorem rules_eq (h : walk.HandsOn place handing next) (hown : handing ≠ .own) :
    next.rules = place.rules.keep fun token => handing.lets token := by
  cases h with
  | layer hlayer hrules => exact hrules
  | redirected hview hname hfield hdeclared hrules => exact hrules
  | main hview hfield hmain hdeclared hrules => exact hrules
  | own => exact absurd rfl hown

end HandsOn

/-! ## What a chain of ways does to the rules -/

/-- A walk comes from the first place to the last one, the rules on the listed ways. -/
inductive Passes (walk : Walk) : Nat → Place → List Handing → Nat → Place → Prop
  | here (levels : Nat) (place : Place) : Passes walk levels place [] levels place
  | inside {levels rest : Nat} {place next last : Place} {handing : Handing} {handings : List Handing}
      (hnext : (handing, next) ∈ walk.handedOn levels place)
      (hrest : Passes walk levels next handings rest last) :
      Passes walk (levels + 1) place (handing :: handings) rest last

/-- On every place that a walk comes to, and on no other, the rules come on some ways. -/
theorem comesTo_iff_passes :
    walk.ComesTo levels place rest last ↔ ∃ handings, walk.Passes levels place handings rest last := by
  constructor
  · intro h
    induction h with
    | here levels place => exact ⟨[], .here levels place⟩
    | @inside levels rest place next last hnext _ ih =>
        obtain ⟨handings, hpasses⟩ := ih
        rw [← map_handedOn] at hnext
        obtain ⟨⟨handing, found⟩, hfound, rfl⟩ := List.mem_map.1 hnext
        exact ⟨handing :: handings, .inside hfound hpasses⟩
  · rintro ⟨handings, h⟩
    induction h with
    | here levels place => exact .here levels place
    | @inside levels rest place next last handing handings hnext _ ih =>
        have hbelow : next ∈ walk.placesBelow levels place := by
          rw [← map_handedOn]
          exact List.mem_map.2 ⟨_, hnext, rfl⟩
        exact .inside hbelow ih

namespace Passes

/-- Ways that take no rules of fields take tokens out, and change nothing else. -/
theorem rules_eq (h : walk.Passes levels place handings rest last) (hown : Handing.own ∉ handings) :
    last.rules = place.rules.keep fun token => handings.all (Handing.lets token) := by
  induction h with
  | here levels place => simp [RuleSet.keep]
  | @inside levels rest place next last handing handings hnext _ ih =>
      have hfirst := (handsOn_of_mem hnext).rules_eq (List.ne_of_not_mem_cons hown).symm
      rw [ih (List.not_mem_of_not_mem_cons hown), hfirst]
      simp only [RuleSet.keep, List.filter_filter, List.all_cons, Bool.and_comm]

/-- The tokens that come through, told by what is on the way. -/
theorem tokens_eq (h : walk.Passes levels place handings rest last) (hown : Handing.own ∉ handings) :
    last.rules.tokens = place.rules.tokens.filter fun token =>
      (!handings.any Handing.forwards || !Text.startsWith token RuleSet.redirectFront) &&
        !Handing.consumed handings token := by
  rw [h.rules_eq hown]
  simp only [RuleSet.keep, Handing.all_lets]

theorem targets_of_layers (h : walk.Passes levels place handings rest last)
    (hlayers : ∀ handing ∈ handings, handing.isLayer = true) : last.rules.targets = place.rules.targets := by
  have hown : Handing.own ∉ handings := fun hmem => absurd (hlayers _ hmem) (by decide)
  rw [h.rules_eq hown]
  apply RuleSet.targets_keep
  intro token name hname
  have hredirects := Text.after?_of_argument? hname
  have hlength (key : String) (hkey : Text.Disjoint RuleSet.redirectFront key) :
      Comparison.isOf key token = false := RuleSet.isOf_eq_false_of_disjoint hredirects hkey
  rw [List.all_eq_true]
  intro handing hmem
  cases handing with
  | present | content => rfl
  | item => simp [Handing.lets, hlength Visit.sequenceKey (by decide)]
  | entry => simp [Handing.lets, hlength Visit.mappingKey (by decide)]
  | redirected | main | own => cases hlayers _ hmem

/-- Behind a redirection, or in a field marked `main`, no token is left that redirects. -/
theorem targets_of_forwards (h : walk.Passes levels place handings rest last)
    (hown : Handing.own ∉ handings) (hforwards : handings.any Handing.forwards = true) :
    last.rules.targets = [] := by
  rw [RuleSet.targets_eq_nil_iff, h.tokens_eq hown]
  intro token htoken
  have hlet := (List.mem_filter.1 htoken).2
  rw [hforwards, Bool.not_true, Bool.false_or, Bool.and_eq_true, Bool.not_eq_true'] at hlet
  have hfront : Text.after? RuleSet.redirectFront token = none := by
    simpa [Text.startsWith] using hlet.1
  simp [Text.argument?, hfront]

/-- A chain of ways can be halted on the way. -/
theorem split {front back : List Handing} (h : walk.Passes levels place (front ++ back) rest last) :
    ∃ between middle, walk.Passes levels place front between middle ∧
      walk.Passes between middle back rest last := by
  induction front generalizing levels place with
  | nil => exact ⟨levels, place, .here levels place, h⟩
  | cons handing front ih =>
      cases h with
      | inside hnext hrest =>
          obtain ⟨between, middle, hfront, hback⟩ := ih hrest
          exact ⟨between, middle, .inside hnext hfront, hback⟩

/-- Rules are redirected only as long as they came through layers alone. -/
theorem layers_of_redirected {front back : List Handing}
    (h : walk.Passes levels place (front ++ .redirected :: back) rest last)
    (hown : Handing.own ∉ front) : ∀ handing ∈ front, handing.isLayer = true := by
  obtain ⟨between, middle, hfront, hback⟩ := h.split
  have htargets : middle.rules.targets ≠ [] := by
    cases hback with
    | inside hnext hrest =>
        cases handsOn_of_mem hnext with
        | layer hlayer => cases hlayer
        | redirected hview hname => exact List.ne_nil_of_mem hname
  have hnone : front.any Handing.forwards ≠ true := fun hforwards =>
    htargets (hfront.targets_of_forwards hown hforwards)
  intro handing hmem
  have hhanding : handing.forwards = false :=
    Bool.eq_false_iff.2 fun hforwards => hnone (List.any_eq_true.2 ⟨handing, hmem, hforwards⟩)
  exact handing.isLayer_iff.2 ⟨hhanding, ne_of_mem_of_not_mem hmem hown⟩

/-- Where rules of fields were taken on the way, those of the last such field are the ones that count. -/
theorem exists_own (h : walk.Passes levels place handings rest last) (hown : Handing.own ∈ handings) :
    ∃ front back between middle base view field, handings = front ++ .own :: back ∧ Handing.own ∉ back ∧
      walk.Passes levels place (front ++ [.own]) between middle ∧
      walk.Passes between middle back rest last ∧ walk.view? base = some view ∧ field ∈ view.fields ∧
      middle.declared = field.declared ∧ middle.rules = walk.tokenize field.rules := by
  induction h with
  | here => cases hown
  | @inside levels rest place next last handing handings hnext hrest ih =>
      by_cases hlater : Handing.own ∈ handings
      · obtain ⟨front, back, between, middle, base, view, field, rfl, hback, hfront, hfield⟩ := ih hlater
        exact ⟨handing :: front, back, between, middle, base, view, field, rfl, hback,
          .inside hnext hfront, hfield⟩
      · rcases List.mem_cons.1 hown with rfl | hmem
        · cases handsOn_of_mem hnext with
          | layer hlayer => cases hlayer
          | own hview hfield hdeclared hrules =>
              exact ⟨[], handings, _, next, _, _, _, rfl, hlater, .inside hnext (.here _ next), hrest, hview,
                hfield, hdeclared, hrules⟩
        · exact absurd hmem hlater

end Passes

/--
What becomes of the rules that a place gets, wherever the visits from there on come to.  They redirect as long as
they came through layers alone.  Once they came to a field, by a redirection or to one marked `main`, all that do
not redirect are there in their order, but for the lengths, and none that does.  What comes to a place behind a
field with its own rules comes from those.
-/
structure RedirectsOnce (walk : Walk) (levels : Nat) (place : Place) : Prop where
  handed : ∀ rest last, walk.ComesTo levels place rest last ↔
    ∃ handings, walk.Passes levels place handings rest last
  acted : ∀ handings rest last, walk.Passes levels place handings rest last →
    (∀ handing ∈ handings, handing.isLayer = true) →
      last.rules.tokens = (place.rules.tokens.filter fun token => !Handing.consumed handings token) ∧
        last.rules.targets = place.rules.targets
  spent : ∀ handings rest last, walk.Passes levels place handings rest last → .own ∉ handings →
    handings.any Handing.forwards = true →
      last.rules.tokens = (place.rules.tokens.filter fun token =>
        !Text.startsWith token RuleSet.redirectFront && !Handing.consumed handings token) ∧
      last.rules.targets = []
  once : ∀ front back rest last, walk.Passes levels place (front ++ .redirected :: back) rest last →
    .own ∉ front ++ .redirected :: back →
      (∀ handing ∈ front, handing.isLayer = true) ∧ .redirected ∉ back
  fresh : ∀ handings rest last, walk.Passes levels place handings rest last → .own ∈ handings →
    ∃ front back between middle base view field, handings = front ++ .own :: back ∧ .own ∉ back ∧
      walk.Passes levels place (front ++ [.own]) between middle ∧
      walk.Passes between middle back rest last ∧ walk.view? base = some view ∧ field ∈ view.fields ∧
      middle.declared = field.declared ∧ middle.rules = walk.tokenize field.rules

theorem redirectsOnce (walk : Walk) (levels : Nat) (place : Place) : walk.RedirectsOnce levels place where
  handed rest last := comesTo_iff_passes
  acted handings rest last h hlayers := by
    have hown : Handing.own ∉ handings := fun hmem => absurd (hlayers _ hmem) (by decide)
    have hnone : handings.any Handing.forwards = false :=
      List.any_eq_false.2 fun handing hmem =>
        Bool.not_eq_true _ ▸ (handing.isLayer_iff.1 (hlayers handing hmem)).1
    refine ⟨?_, h.targets_of_layers hlayers⟩
    rw [h.tokens_eq hown, hnone]
    simp only [Bool.not_false, Bool.true_or, Bool.true_and]
  spent handings rest last h hown hforwards := by
    refine ⟨?_, h.targets_of_forwards hown hforwards⟩
    rw [h.tokens_eq hown, hforwards]
    simp only [Bool.not_true, Bool.false_or]
  once front back rest last h hown := by
    have hfront : Handing.own ∉ front := fun hmem => hown (List.mem_append_left _ hmem)
    refine ⟨h.layers_of_redirected hfront, fun hmem => ?_⟩
    -- a second redirection would have the first one among the layers in front of it
    obtain ⟨between, after, rfl⟩ := List.append_of_mem hmem
    rw [← List.cons_append, ← List.append_assoc] at h hown
    have hearlier : Handing.own ∉ front ++ .redirected :: between := fun hmem =>
      hown (List.mem_append_left _ hmem)
    have hlayer := h.layers_of_redirected hearlier .redirected (by simp)
    cases hlayer
  fresh handings rest last h hown := h.exists_own hown

/-- A walk through nodes that hold nodes, with rules that are redirected to the next node. -/
def throughNodes : Walk where
  evaluator? := Registry.standard.get?
  tagKey := "rules"
  tokenize := .parse
  view? base := if base.isRecord then some ⟨"Node", [⟨"next", .absent, "main,on next"⟩], none, none⟩ else none
  context := .null

example :
    let node next := Value.record ⟨"Node", .data, false⟩ [("next", next)]
    (throughNodes.handedOn 6 ⟨true, .absent, node (node (node .null)), .parse "on next,toupper"⟩).map
        (fun found => (found.1, found.2.rules.tokens)) =
      [(.redirected, ["toupper"]), (.main, ["toupper"]), (.own, ["main", "on next"])] := by
  decide +kernel

end Walk

end RuleCheck
