import RuleCheck.Proofs.Visit.Entailing
import RuleCheck.Proofs.Visit.Fields
import RuleCheck.Session
import RuleCheck.Walk

/-! # Walks under rules that ask for less

What passes under rules passes in the same way under rules that those entail: it becomes the same, and the
same hooks are called.  Where the rules redirect to the same fields in another order, the visits to these
fields commute, and the calls of hooks are rearranged with them.
-/

namespace RuleCheck

def Event.call? : Event → Option HookCall
  | .called typeName context => some ⟨typeName, context⟩
  | _ => none

def Visit.calls (visit : Visit) : List HookCall :=
  visit.events.filterMap Event.call?

def Visits.calls (visits : Visits) : List HookCall :=
  visits.events.filterMap Event.call?

namespace Visit

theorem calls_after (events : List Event) (visit : Visit) :
    (visit.after events).calls = events.filterMap Event.call? ++ visit.calls := by
  simp [calls, after]

theorem calls_andThen {visit : Visit} (h : visit.stop = none) (next : Value → Visit) :
    (visit.andThen next).calls = visit.calls ++ (next visit.value).calls := by
  simp [calls, andThen, h]

theorem calls_ofItems (value : Value) (visits : Visits) :
    (ofItems value visits).calls = visits.calls := by
  unfold ofItems
  split <;> rfl

theorem andThen_pass_right (visit : Visit) : visit.andThen pass = visit := by
  cases visit with
  | mk value replaced events stop => cases stop <;> simp [andThen, pass]

theorem after_pass_andThen (events : List Event) (value : Value) (next : Value → Visit) :
    ((pass value).after events).andThen next = (next value).after events := by
  simp [andThen, after, pass]

theorem calls_zeroEvents (value : Value) : (zeroEvents value).filterMap Event.call? = [] := by
  simp [zeroEvents, Event.call?]

/-- Whether a visit passes in the same way as another one that passed. -/
structure Repeats (ordered : Prop) (first second : Visit) : Prop where
  stop : second.stop = none
  value : second.value = first.value
  replaced : second.replaced = first.replaced
  calls : Rearranged ordered first.calls second.calls

/-- Whether a second visit passes in the same way as the first one if the first one passes. -/
def Entails (ordered : Prop) (first second : Visit) : Prop :=
  first.stop = none → Repeats ordered first second

variable {ordered : Prop} {first second third : Visit}

theorem Entails.refl (visit : Visit) : Entails ordered visit visit :=
  fun hpass => ⟨hpass, rfl, rfl, .refl _⟩

theorem Entails.trans (h : Entails ordered first second) (h' : Entails ordered second third) :
    Entails ordered first third := by
  intro hpass
  obtain ⟨hstop, hvalue, hreplaced, hcalls⟩ := h hpass
  obtain ⟨hstop', hvalue', hreplaced', hcalls'⟩ := h' hstop
  exact ⟨hstop', hvalue'.trans hvalue, hreplaced'.trans hreplaced, hcalls.trans hcalls'⟩

theorem Entails.andThen {next last : Value → Visit} (h : Entails ordered first second)
    (hnext : ∀ value, Entails ordered (next value) (last value)) :
    Entails ordered (first.andThen next) (second.andThen last) := by
  intro hpass
  obtain ⟨hfirst, hrest, hvalue, hreplaced⟩ := andThen_passed hpass
  obtain ⟨hstop, hsame, hsame', hcalls⟩ := h hfirst
  obtain ⟨hstop', hlast, hlast', hcalls'⟩ := hnext first.value hrest
  rw [← hsame] at hstop'
  have hboth : (second.andThen last).stop = none := by simp [Visit.andThen, hstop, hstop']
  obtain ⟨-, -, hvalue', hreplaced'⟩ := andThen_passed hboth
  refine ⟨hboth, ?_, ?_, ?_⟩
  · rw [hvalue', hvalue, hsame, hlast]
  · rw [hreplaced', hreplaced, hsame, hsame', hlast']
  · rw [calls_andThen hfirst, calls_andThen hstop, hsame]
    exact hcalls.append hcalls'

theorem Entails.after (h : Entails ordered first second) {events events' : List Event}
    (hevents : events.filterMap Event.call? = []) (hevents' : events'.filterMap Event.call? = []) :
    Entails ordered (first.after events) (second.after events') := by
  intro hpass
  obtain ⟨hstop, hvalue, hreplaced, hcalls⟩ := h hpass
  refine ⟨hstop, hvalue, hreplaced, ?_⟩
  simpa [calls_after, hevents, hevents'] using hcalls

end Visit

namespace Walk

open Visit (Entails)

/-- Whether what passes on a way down passes in the same way under rules that ask for less. -/
def Tolerant (ordered : Prop) (descend : Bool → Annotation → Value → RuleSet → Visit) : Prop :=
  ∀ writable declared value rules milder, RuleSet.Entails ordered rules milder →
    Entails ordered (descend writable declared value rules) (descend writable declared value milder)

variable {ordered : Prop} {rules milder : RuleSet}
  {descend : Bool → Annotation → Value → RuleSet → Visit}

theorem entails_scalar (hrules : rules.Entails ordered milder) (kind : ScalarKind) (writable : Bool)
    (held : Value) :
    Entails ordered (kind.visit writable held rules) (kind.visit writable held milder) := by
  intro hpass
  unfold ScalarKind.visit at hpass ⊢
  rw [ScalarKind.settle_of_entails hrules]
  cases hsettle : kind.settle rules held with
  | error stop => simp [hsettle, Visit.halt] at hpass
  | ok settled =>
      have hcheck (h : kind.checkStop rules settled.value = none) :
          kind.checkStop milder settled.value = none := ScalarKind.checkStop_of_entails hrules h
      cases hchanged : settled.changed with
      | false =>
          simp only [hsettle, hchanged, Bool.false_eq_true, if_false] at hpass ⊢
          exact ⟨hcheck hpass, rfl, rfl, .refl _⟩
      | true =>
          cases writable with
          | false => simp [hsettle, hchanged, Visit.refuse, Visit.halt] at hpass
          | true =>
              simp only [hsettle, hchanged, if_true] at hpass ⊢
              exact ⟨hcheck hpass, rfl, rfl, .refl _⟩

theorem Tolerant.optional (h : Tolerant ordered descend) (hrules : rules.Entails ordered milder)
    (writable : Bool) (resolved : Resolved) (value : Value) :
    Entails ordered (.optional descend writable resolved value rules)
      (.optional descend writable resolved value milder) := by
  intro hpass
  unfold Visit.optional at hpass ⊢
  cases hnull : value.isNull with
  | true =>
      cases hrequired : rules.required with
      | true => simp [hnull, hrequired, Visit.missing] at hpass
      | false =>
          simp only [hrules.required hrequired]
          exact Entails.refl _ rfl
  | false =>
      simp only [hnull, Bool.false_eq_true, if_false] at hpass ⊢
      exact h _ _ _ _ _ hrules hpass

theorem Tolerant.reference (h : Tolerant ordered descend) (hrules : rules.Entails ordered milder)
    (resolved : Resolved) (value : Value) :
    Entails ordered (.reference descend resolved value rules)
      (.reference descend resolved value milder) := by
  intro hpass
  cases value with
  | box content =>
      cases hnull : content.isNull with
      | true =>
          obtain rfl := Value.eq_null_of_isNull hnull
          cases hrequired : rules.required with
          | true => simp [Visit.reference, hrequired, Visit.refuse, Visit.halt] at hpass
          | false =>
              simp only [Visit.reference, hrequired, hrules.required hrequired]
              exact Entails.refl _ rfl
      | false =>
          rw [Visit.reference_present hnull] at hpass ⊢
          rw [Visit.reference_present hnull]
          obtain ⟨hstop, hvalue, hreplaced, hcalls⟩ := h _ _ _ _ _ hrules hpass
          exact ⟨hstop, congrArg Value.box hvalue, rfl, hcalls⟩
  | _ => cases hpass

/-! ## Sequences and mappings -/

/-- Whether second visits to several values pass in the same way as the first ones if those pass. -/
def EntailAll (ordered : Prop) (first second : Visits) : Prop :=
  first.stop = none → second.stop = none ∧ second.values = first.values ∧
    second.replaced = first.replaced ∧ Rearranged ordered first.calls second.calls

theorem calls_cons (visit : Visit) (rest : Visits) :
    (Visits.cons visit rest).calls = visit.calls ++ rest.calls := by
  simp [Visits.calls, Visit.calls, Visits.cons]

theorem EntailAll.cons {first second : Visit} {rest last : Visits}
    (h : Visit.Repeats ordered first second) (hrest : EntailAll ordered rest last) :
    EntailAll ordered (.cons first rest) (.cons second last) := by
  intro hpass
  obtain ⟨hstop, hvalues, hreplaced, hcalls⟩ := hrest hpass
  refine ⟨hstop, ?_, ?_, ?_⟩
  · simp only [Visits.cons, hvalues, h.value]
  · simp only [Visits.cons, hreplaced, h.replaced]
  · rw [calls_cons, calls_cons]
    exact h.calls.append hcalls

theorem entails_items {visit milderVisit : Nat → Value → Visit}
    (h : ∀ index item, Entails ordered (visit index item) (milderVisit index item)) (index : Nat)
    (items : List Value) :
    EntailAll ordered (Visits.ofItems visit index items)
      (Visits.ofItems milderVisit index items) := by
  induction items generalizing index with
  | nil => exact fun _ => ⟨rfl, rfl, rfl, .refl _⟩
  | cons item items ih =>
      intro hpass
      unfold Visits.ofItems at hpass ⊢
      cases hfirst : (visit index item).stop with
      | some stop => simp [hfirst, Visits.halted] at hpass
      | none =>
          have hsame := h index item hfirst
          simp only [hfirst, hsame.stop] at hpass ⊢
          exact EntailAll.cons hsame (ih (index + 1)) hpass

theorem entails_entries {visit milderVisit : Value → Visit}
    (h : ∀ item, Entails ordered (visit item) (milderVisit item)) (assigned : Bool)
    (entries : List (Value × Value)) :
    EntailAll ordered (Visits.ofEntries assigned visit entries)
      (Visits.ofEntries assigned milderVisit entries) := by
  induction entries with
  | nil => exact fun _ => ⟨rfl, rfl, rfl, .refl _⟩
  | cons entry entries ih =>
      obtain ⟨key, item⟩ := entry
      intro hpass
      unfold Visits.ofEntries at hpass ⊢
      cases hfirst : (visit item).stop with
      | some stop => simp [hfirst, Visits.halted] at hpass
      | none =>
          have hsame := h item hfirst
          simp only [hfirst, hsame.stop] at hpass ⊢
          exact EntailAll.cons hsame ih hpass

theorem entails_missing (hrules : rules.Entails ordered milder) (key : String) :
    Entails ordered (.missing (rules.missingStop key)) (.missing (milder.missingStop key)) := by
  intro hpass
  have hmilder := hrules.missingStop hpass
  exact ⟨hmilder, rfl, rfl, .refl _⟩

theorem Tolerant.sequence (h : Tolerant ordered descend) (hrules : rules.Entails ordered milder)
    (writable : Bool) (resolved : Resolved) (value : Value) :
    Entails ordered (.sequence descend writable resolved value rules)
      (.sequence descend writable resolved value milder) := by
  cases hnull : value.isNull with
  | true =>
      simp only [Visit.sequence, hnull, if_true]
      exact entails_missing hrules _
  | false =>
      intro hpass
      obtain ⟨remaining, items, hcheck, hsize, hitems, heq⟩ := Visit.sequence_passed hnull hpass
      obtain ⟨-, rfl⟩ := RuleSet.checkLength_eq_ok hcheck
      have hbelow := entails_items (fun index item =>
        h (value.itemsWritable writable) (resolved.item index) item _ _
          (hrules.withoutKey (by decide : Visit.sequenceKey ∈ _))) 0 items
      rw [heq] at hpass ⊢
      rw [Visit.ofItems_stop] at hpass
      obtain ⟨hstop, hvalues, hreplaced, hcalls⟩ := hbelow hpass
      simp only [Visit.sequence, hnull, hrules.checkLength hcheck, hsize, hitems,
        Bool.false_eq_true, if_false]
      refine ⟨?_, ?_, ?_, ?_⟩
      · rw [Visit.ofItems_stop, hstop]
      · rw [Visit.ofItems_value, Visit.ofItems_value, hvalues, hreplaced]
      · rw [Visit.ofItems_replaced, Visit.ofItems_replaced, hreplaced]
      · rw [Visit.calls_ofItems, Visit.calls_ofItems]
        exact hcalls

theorem Tolerant.mapping (h : Tolerant ordered descend) (hrules : rules.Entails ordered milder)
    (resolved : Resolved) (value : Value) :
    Entails ordered (.mapping descend resolved value rules)
      (.mapping descend resolved value milder) := by
  cases hnull : value.isNull with
  | true =>
      simp only [Visit.mapping, hnull, if_true]
      exact entails_missing hrules _
  | false =>
      intro hpass
      obtain ⟨remaining, kind, derived, entries, hcheck, rfl, heq⟩ := Visit.mapping_passed hnull hpass
      obtain ⟨-, rfl⟩ := RuleSet.checkLength_eq_ok hcheck
      have hbelow := entails_entries (fun item =>
        h kind.isMutable resolved.element item _ _
          (hrules.withoutKey (by decide : Visit.mappingKey ∈ _))) kind.isMutable entries
      rw [heq] at hpass ⊢
      obtain ⟨hstop, hvalues, -, hcalls⟩ := hbelow hpass
      simp only [Visit.mapping, hnull, hrules.checkLength hcheck, Bool.false_eq_true, if_false]
      exact ⟨hstop, by rw [hvalues], rfl, hcalls⟩

/-! ## Records -/

section

variable {tagKey typeName : String} {writable : Bool} {fields : List Field}

theorem step_of_content {record content : Value} {field : Field}
    (hcontent : record.fieldContent? field.name = some content) (rules : RuleSet) :
    Visit.step descend tagKey typeName writable record (.descend field rules) =
      let inner := descend (record.isMutable || writable) field.declared content rules
      ⟨record.withField field.name inner.value, !record.isMutable && inner.replaced, inner.events,
        inner.stop.map (Stop.under field.name)⟩ := by
  simp only [Visit.step, Visit.field, hcontent]

theorem Tolerant.step (h : Tolerant ordered descend) (hrules : rules.Entails ordered milder)
    (field : Field) (record : Value) :
    Entails ordered (.step descend tagKey typeName writable record (.descend field rules))
      (.step descend tagKey typeName writable record (.descend field milder)) := by
  intro hpass
  obtain ⟨content, hcontent, hinner, -, -⟩ := Visit.step_passed hpass
  obtain ⟨hstop, hvalue, hreplaced, hcalls⟩ := h _ field.declared content _ _ hrules hinner
  rw [step_of_content hcontent, step_of_content hcontent]
  refine ⟨?_, ?_, ?_, hcalls⟩
  · simp only [hstop, Option.map_none]
  · simp only [hvalue]
  · simp only [hreplaced]

/-- Whether steps pass in the same way as other steps that pass, whatever record they start from. -/
def EntailsPlan (ordered : Prop) (descend : Bool → Annotation → Value → RuleSet → Visit)
    (tagKey typeName : String) (writable : Bool) (plan milderPlan : List RecordStep) : Prop :=
  ∀ record, Entails ordered (.steps descend tagKey typeName writable plan record)
    (.steps descend tagKey typeName writable milderPlan record)

namespace EntailsPlan

variable {plan milderPlan rest milderRest : List RecordStep}

theorem refl (plan : List RecordStep) :
    EntailsPlan ordered descend tagKey typeName writable plan plan :=
  fun _ => .refl _

theorem append (h : EntailsPlan ordered descend tagKey typeName writable plan milderPlan)
    (hrest : EntailsPlan ordered descend tagKey typeName writable rest milderRest) :
    EntailsPlan ordered descend tagKey typeName writable (plan ++ rest) (milderPlan ++ milderRest) := by
  intro record
  rw [Visit.steps_append, Visit.steps_append]
  exact (h record).andThen hrest

theorem cons (step : RecordStep)
    (hrest : EntailsPlan ordered descend tagKey typeName writable rest milderRest) :
    EntailsPlan ordered descend tagKey typeName writable (step :: rest) (step :: milderRest) :=
  append (refl [step]) hrest

theorem descend_cons (h : Tolerant ordered descend) (hrules : rules.Entails ordered milder)
    (field : Field) (hrest : EntailsPlan ordered descend tagKey typeName writable rest milderRest) :
    EntailsPlan ordered descend tagKey typeName writable (.descend field rules :: rest)
      (.descend field milder :: milderRest) :=
  fun record => (h.step hrules field record).andThen hrest

theorem flatMap {α : Type} {list : List α} {plans milderPlans : α → List RecordStep}
    (h : ∀ a ∈ list, EntailsPlan ordered descend tagKey typeName writable (plans a) (milderPlans a)) :
    EntailsPlan ordered descend tagKey typeName writable (list.flatMap plans)
      (list.flatMap milderPlans) := by
  induction list with
  | nil => exact refl []
  | cons a list ih =>
      obtain ⟨hfirst, hrest⟩ := List.forall_mem_cons.1 h
      exact append hfirst (ih hrest)

end EntailsPlan

theorem Tolerant.ofTarget (h : Tolerant ordered descend) (hrules : rules.Entails ordered milder)
    (name : String) :
    EntailsPlan ordered descend tagKey typeName writable (RecordStep.ofTarget fields rules name)
      (RecordStep.ofTarget fields milder name) := by
  unfold RecordStep.ofTarget
  refine .cons _ ?_
  split
  · exact .descend_cons h hrules.forwarded _ (.refl [])
  · exact .refl _

theorem Tolerant.ofField (h : Tolerant ordered descend) (hrules : rules.Entails ordered milder)
    (tokenize : String → RuleSet) (field : Field) :
    EntailsPlan ordered descend tagKey typeName writable (RecordStep.ofField tokenize rules field)
      (RecordStep.ofField tokenize milder field) := by
  unfold RecordStep.ofField
  refine .cons _ ?_
  split
  · exact .refl []
  · split
    · exact .descend_cons h hrules.forwarded _ (.refl _)
    · exact .refl _

/-! ## Fields in another order -/

variable (descend tagKey typeName writable) in
theorem steps_ofTarget {record content : Value} {field : Field} {name : String}
    (hfound : fields.find? (fun field => field.name == name) = some field)
    (hcontent : record.fieldContent? name = some content) (rules : RuleSet) :
    Visit.steps descend tagKey typeName writable (RecordStep.ofTarget fields rules name) record =
      let inner := descend (record.isMutable || writable) field.declared content
        (RecordStep.forwarded rules)
      ⟨record.withField name inner.value, !record.isMutable && inner.replaced,
        .fieldsRead typeName (some tagKey) :: inner.events, inner.stop.map (Stop.under name)⟩ := by
  obtain rfl : field.name = name := by simpa using List.find?_some hfound
  have hfirst : Visit.step descend tagKey typeName writable record .readFields =
      (Visit.pass record).after [.fieldsRead typeName (some tagKey)] := rfl
  simp only [RecordStep.ofTarget, hfound, Visit.steps, Visit.andThen_pass_right, hfirst,
    Visit.after_pass_andThen, step_of_content hcontent]
  rfl

theorem ofTarget_passed {record : Value} {name : String} {rules : RuleSet}
    (hpass : (Visit.steps descend tagKey typeName writable (RecordStep.ofTarget fields rules name)
      record).stop = none) :
    ∃ field content, fields.find? (fun field => field.name == name) = some field ∧
      record.fieldContent? name = some content := by
  obtain ⟨-, hrest, -, -⟩ := Visit.andThen_passed hpass
  obtain ⟨hstep, -, -, -⟩ := Visit.andThen_passed hrest
  cases hfound : fields.find? fun field => field.name == name with
  | none => simp [hfound, Visit.step, Visit.refuse, Visit.halt] at hstep
  | some field =>
      obtain rfl : field.name = name := by simpa using List.find?_some hfound
      simp only [hfound] at hstep
      obtain ⟨content, hcontent, -⟩ := Visit.step_passed hstep
      exact ⟨field, content, rfl, hcontent⟩

theorem entails_swap (rules : RuleSet) (name other : String) :
    EntailsPlan False descend tagKey typeName writable
      (RecordStep.ofTarget fields rules name ++ RecordStep.ofTarget fields rules other)
      (RecordStep.ofTarget fields rules other ++ RecordStep.ofTarget fields rules name) := by
  by_cases hsame : other = name
  · subst hsame
    exact .refl _
  · intro record hpass
    rw [Visit.steps_append] at hpass ⊢
    rw [Visit.steps_append]
    obtain ⟨hfirst, hsecond, -, -⟩ := Visit.andThen_passed hpass
    obtain ⟨field, content, hfield, hcontent⟩ := ofTarget_passed hfirst
    obtain ⟨last, content', hlast, hcontent'⟩ := ofTarget_passed hsecond
    have hname := steps_ofTarget descend tagKey typeName writable hfield hcontent rules
    rw [hname] at hfirst hsecond hcontent'
    simp only [Value.fieldContent?_withField_of_ne _ _ hsame] at hcontent'
    have hother := steps_ofTarget descend tagKey typeName writable hlast hcontent' rules
    -- each of the visits is the same on the record that the other one left
    have hnameAfter (new : Value) := steps_ofTarget descend tagKey typeName writable hfield
      ((Value.fieldContent?_withField_of_ne record new (Ne.symm hsame)).trans hcontent) rules
    have hotherAfter (new : Value) := steps_ofTarget descend tagKey typeName writable hlast
      ((Value.fieldContent?_withField_of_ne record new hsame).trans hcontent') rules
    simp only [Value.isMutable_withField] at hnameAfter hotherAfter
    simp only [hotherAfter, Option.map_eq_none_iff] at hfirst hsecond
    simp only [Visit.andThen, hname, hother, hnameAfter, hotherAfter, hfirst, hsecond,
      Option.map_none]
    refine ⟨rfl, Value.withField_comm hsame .., Bool.or_comm .., ?_, False.elim⟩
    simp only [Visit.calls, List.filterMap_append, List.filterMap_cons, Event.call?]
    exact List.perm_append_comm

theorem entails_of_perm (rules : RuleSet) {names others : List String} (h : names.Perm others) :
    EntailsPlan False descend tagKey typeName writable
      (names.flatMap (RecordStep.ofTarget fields rules))
      (others.flatMap (RecordStep.ofTarget fields rules)) := by
  induction h with
  | nil => exact .refl []
  | cons name _ ih => exact .append (.refl _) ih
  | swap name other names =>
      simp only [List.flatMap_cons, ← List.append_assoc]
      exact .append (entails_swap rules other name) (.refl _)
  | trans _ _ ih ih' => exact fun record => (ih record).trans (ih' record)

theorem Tolerant.targets (h : Tolerant ordered descend) (hrules : rules.Entails ordered milder) :
    EntailsPlan ordered descend tagKey typeName writable
      (rules.targets.flatMap (RecordStep.ofTarget fields rules))
      (milder.targets.flatMap (RecordStep.ofTarget fields milder)) := by
  have hsame : EntailsPlan ordered descend tagKey typeName writable
      (rules.targets.flatMap (RecordStep.ofTarget fields rules))
      (rules.targets.flatMap (RecordStep.ofTarget fields milder)) :=
    .flatMap fun name _ => h.ofTarget hrules name
  by_cases hordered : ordered
  · rw [← hrules.targets.2 hordered]
    exact hsame
  · obtain rfl : ordered = False := eq_false hordered
    exact fun record => (hsame record).trans (entails_of_perm milder hrules.targets.1 record)

/-- The steps of a visit to a record, under rules and under ones that ask for less. -/
theorem Tolerant.plan (h : Tolerant ordered descend) (hrules : rules.Entails ordered milder)
    (tokenize : String → RuleSet) :
    EntailsPlan ordered descend tagKey typeName writable (RecordStep.all tokenize fields rules)
      (RecordStep.all tokenize fields milder) :=
  .append (h.targets hrules) (.cons _ (.flatMap fun field _ => h.ofField hrules tokenize field))

end

theorem Tolerant.record (h : Tolerant ordered descend) (hrules : rules.Entails ordered milder)
    (walk : Walk) (writable : Bool) (value : Value) :
    Entails ordered
      (.record descend walk.tokenize walk.tagKey walk.context walk.view? writable value rules)
      (.record descend walk.tokenize walk.tagKey walk.context walk.view? writable value milder) := by
  intro hpass
  cases hnull : value.isNull with
  | true =>
      simp only [Visit.record, hnull, if_true] at hpass ⊢
      cases hrequired : rules.required with
      | true => simp [hrequired] at hpass
      | false =>
          simp only [hrules.required hrequired]
          exact Entails.refl _ rfl
  | false =>
      obtain ⟨hnonzero, view, hview, heq⟩ := Visit.record_passed hnull hpass
      -- a record that is asked for under the milder rules was asked for before
      have hmilder : milder.required = true → value.zeroFails = false ∧ value.isZero = false := by
        intro hasked
        refine hnonzero ?_
        cases hrequired : rules.required with
        | true => rfl
        | false => rw [hrules.required hrequired] at hasked; cases hasked
      have heq' : Visit.record descend walk.tokenize walk.tagKey walk.context walk.view? writable
          value milder =
            (Visit.presentRecord descend walk.tokenize walk.tagKey walk.context view writable value
              milder).after (if milder.required then Visit.zeroEvents value else []) := by
        cases hasked : milder.required with
        | false => simp [Visit.record, hnull, hasked, hview]
        | true => simp [Visit.record, hnull, hasked, hview, hmilder hasked]
      have hcalls (rules : RuleSet) :
          (if rules.required then Visit.zeroEvents value else []).filterMap Event.call? = [] := by
        split
        · exact Visit.calls_zeroEvents value
        · rfl
      have hsteps : Entails ordered
          (Visit.presentRecord descend walk.tokenize walk.tagKey walk.context view writable value rules)
          (Visit.presentRecord descend walk.tokenize walk.tagKey walk.context view writable value
            milder) :=
        (h.plan hrules walk.tokenize value).andThen fun _ => .refl _
      rw [heq] at hpass ⊢
      rw [heq']
      exact hsteps.after (hcalls rules) (hcalls milder) hpass

/-- What passes under rules passes in the same way under rules that ask for less. -/
theorem tolerant_visit (walk : Walk) (ordered : Prop) (levels : Nat) :
    Tolerant ordered (walk.visit levels) := by
  induction levels with
  | zero =>
      intro writable declared value rules milder _ hpass
      cases hpass
  | succ levels ih =>
      intro writable declared value rules milder hrules
      simp only [Walk.visit]
      split
      · exact .refl _
      · rename_i evaluator _
        cases evaluator with
        | optional => exact ih.optional hrules writable _ value
        | reference => exact ih.reference hrules _ value
        | scalar kind => exact entails_scalar hrules kind writable value
        | record => exact ih.record hrules walk writable value
        | sequence => exact ih.sequence hrules writable _ value
        | mapping => exact ih.mapping hrules _ value

end Walk

end RuleCheck
