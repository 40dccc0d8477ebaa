import RuleCheck.Proofs.Visit.Passing
import RuleCheck.Walk

/-! # Walks in lockstep

Two walks over the same value, one with fewer levels or with less leave to write than the other, do the
same until the first one is stopped for want of a level or of leave.
-/

namespace RuleCheck

namespace Visit

/-- Two visits that are the same, unless the first was stopped for something excusable. -/
def Agrees (excuse : Stop → Prop) (first second : Visit) : Prop :=
  (∃ stop, first.stop = some stop ∧ excuse stop) ∨ first = second

variable {excuse : Stop → Prop} {first second : Visit}

theorem Agrees.refl (visit : Visit) : Agrees excuse visit visit :=
  .inr rfl

theorem Agrees.andThen {next last : Value → Visit} (h : Agrees excuse first second)
    (hnext : ∀ value, Agrees excuse (next value) (last value)) :
    Agrees excuse (first.andThen next) (second.andThen last) := by
  rcases h with ⟨stop, hstop, hexcuse⟩ | rfl
  · refine .inl ⟨stop, ?_, hexcuse⟩
    simp [Visit.andThen, hstop]
  · cases hstop : first.stop with
    | some stop =>
        refine .inr ?_
        simp [Visit.andThen, hstop]
    | none =>
        rcases hnext first.value with ⟨stop, hother, hexcuse⟩ | hsame
        · refine .inl ⟨stop, ?_, hexcuse⟩
          simp [Visit.andThen, hstop, hother]
        · refine .inr ?_
          simp [Visit.andThen, hstop, hsame]

theorem Agrees.after (events : List Event) (h : Agrees excuse first second) :
    Agrees excuse (first.after events) (second.after events) := by
  rcases h with ⟨stop, hstop, hexcuse⟩ | rfl
  · exact .inl ⟨stop, hstop, hexcuse⟩
  · exact .refl _

end Visit

namespace Walk

open Visit (Agrees)

/-- A leave to write that is the same, or is lacking where the lack of it is excused. -/
def Weaker (excuse : Stop → Prop) (first second : Bool) : Prop :=
  first = second ∨ (first = false ∧ excuse (.refuse .notWritable))

section

variable {excuse : Stop → Prop}

theorem Weaker.refl (writable : Bool) : Weaker excuse writable writable :=
  .inl rfl

theorem Weaker.under {first second : Bool} (h : Weaker excuse first second) (fixed : Bool) :
    Weaker excuse (fixed || first) (fixed || second) := by
  rcases h with rfl | ⟨rfl, hexcuse⟩
  · exact .refl _
  · cases fixed
    · exact .inr ⟨rfl, hexcuse⟩
    · exact .refl _

theorem Weaker.items {first second : Bool} (h : Weaker excuse first second) (value : Value) :
    Weaker excuse (value.itemsWritable first) (value.itemsWritable second) := by
  rcases h with rfl | ⟨rfl, hexcuse⟩
  · exact .refl _
  · unfold Value.itemsWritable
    split
    · exact .inr ⟨rfl, hexcuse⟩
    · exact .refl _
    · rename_i head _
      cases head.isTuple
      · exact .refl _
      · exact .inr ⟨rfl, hexcuse⟩
    · exact .refl _

theorem agrees_scalar (kind : ScalarKind) {first second : Bool} (hw : Weaker excuse first second)
    (held : Value) (rules : RuleSet) :
    Agrees excuse (kind.visit first held rules) (kind.visit second held rules) := by
  rcases hw with rfl | ⟨rfl, hexcuse⟩
  · exact .refl _
  · unfold ScalarKind.visit
    split
    · exact .refl _
    · split
      · exact .inl ⟨_, rfl, hexcuse⟩
      · exact .refl _

variable {d e : Bool → Annotation → Value → RuleSet → Visit}

theorem agrees_optional
    (h : ∀ first second declared value rules, Weaker excuse first second →
      Agrees excuse (d first declared value rules) (e second declared value rules))
    {first second : Bool} (hw : Weaker excuse first second) (resolved : Resolved) (value : Value)
    (rules : RuleSet) :
    Agrees excuse (.optional d first resolved value rules)
      (.optional e second resolved value rules) := by
  unfold Visit.optional
  split
  · exact .refl _
  · exact h _ _ _ _ _ hw

theorem agrees_reference
    (h : ∀ first second declared value rules, Weaker excuse first second →
      Agrees excuse (d first declared value rules) (e second declared value rules))
    (resolved : Resolved) (value : Value) (rules : RuleSet) :
    Agrees excuse (.reference d resolved value rules) (.reference e resolved value rules) := by
  unfold Visit.reference
  split
  · exact .refl _
  · rcases h true true resolved.element _ rules (.refl true) with ⟨stop, hstop, hexcuse⟩ | hsame
    · exact .inl ⟨stop, hstop, hexcuse⟩
    · rw [hsame]
      exact .refl _
  · exact .refl _

/-- Visits to several values that are the same, unless the first ones were stopped for something excusable. -/
def AgreeAll (excuse : Stop → Prop) (first second : Visits) : Prop :=
  (∃ stop, first.stop = some stop ∧ excuse stop) ∨ first = second

theorem agrees_items (hunder : ∀ stop segment, excuse stop → excuse (stop.under segment))
    {f g : Nat → Value → Visit} (h : ∀ index item, Agrees excuse (f index item) (g index item))
    (index : Nat) (items : List Value) :
    AgreeAll excuse (Visits.ofItems f index items) (Visits.ofItems g index items) := by
  induction items generalizing index with
  | nil => exact .inr rfl
  | cons item items ih =>
      unfold Visits.ofItems
      rcases h index item with ⟨stop, hstop, hexcuse⟩ | hsame
      · refine .inl ⟨stop.under (Path.index index), ?_, hunder _ _ hexcuse⟩
        simp [hstop, Visits.halted]
      · rw [← hsame]
        cases hfirst : (f index item).stop with
        | some stop =>
            simp only [hfirst]
            exact .inr rfl
        | none =>
            simp only [hfirst]
            rcases ih (index + 1) with ⟨stop, hstop, hexcuse⟩ | hrest
            · exact .inl ⟨stop, hstop, hexcuse⟩
            · exact .inr (by rw [hrest])

theorem agrees_entries (hunder : ∀ stop segment, excuse stop → excuse (stop.under segment))
    {f g : Value → Visit} (h : ∀ item, Agrees excuse (f item) (g item)) (assigned : Bool)
    (entries : List (Value × Value)) :
    AgreeAll excuse (Visits.ofEntries assigned f entries)
      (Visits.ofEntries assigned g entries) := by
  induction entries with
  | nil => exact .inr rfl
  | cons entry entries ih =>
      obtain ⟨key, item⟩ := entry
      unfold Visits.ofEntries
      rcases h item with ⟨stop, hstop, hexcuse⟩ | hsame
      · refine .inl ⟨stop.under (Path.key key.keyText), ?_, hunder _ _ hexcuse⟩
        simp [hstop, Visits.halted]
      · rw [← hsame]
        cases hfirst : (f item).stop with
        | some stop =>
            simp only [hfirst]
            exact .inr rfl
        | none =>
            simp only [hfirst]
            rcases ih with ⟨stop, hstop, hexcuse⟩ | hrest
            · exact .inl ⟨stop, hstop, hexcuse⟩
            · exact .inr (by rw [hrest])

theorem agrees_sequence (hunder : ∀ stop segment, excuse stop → excuse (stop.under segment))
    (h : ∀ first second declared value rules, Weaker excuse first second →
      Agrees excuse (d first declared value rules) (e second declared value rules))
    {first second : Bool} (hw : Weaker excuse first second) (resolved : Resolved) (value : Value)
    (rules : RuleSet) :
    Agrees excuse (.sequence d first resolved value rules)
      (.sequence e second resolved value rules) := by
  unfold Visit.sequence
  split
  · exact .refl _
  · split
    · exact .refl _
    · rename_i remaining _
      split
      · exact .refl _
      · split
        · exact .refl _
        · rename_i items _
          rcases agrees_items hunder (fun index item => h _ _ (resolved.item index) item remaining
            (hw.items value)) 0 items with ⟨stop, hstop, hexcuse⟩ | hsame
          · exact .inl ⟨stop, by rw [Visit.ofItems_stop, hstop], hexcuse⟩
          · rw [hsame]
            exact .refl _

theorem agrees_mapping (hunder : ∀ stop segment, excuse stop → excuse (stop.under segment))
    (h : ∀ first second declared value rules, Weaker excuse first second →
      Agrees excuse (d first declared value rules) (e second declared value rules))
    (resolved : Resolved) (value : Value) (rules : RuleSet) :
    Agrees excuse (.mapping d resolved value rules) (.mapping e resolved value rules) := by
  unfold Visit.mapping
  split
  · exact .refl _
  · split
    · exact .refl _
    · rename_i remaining _
      split
      · rename_i kind derived entries _ _
        rcases agrees_entries hunder (fun item => h kind.isMutable kind.isMutable resolved.element
          item remaining (.refl _)) kind.isMutable entries with ⟨stop, hstop, hexcuse⟩ | hsame
        · exact .inl ⟨stop, hstop, hexcuse⟩
        · simp only [hsame]
          exact .refl _
      · exact .refl _

theorem agrees_field (hunder : ∀ stop segment, excuse stop → excuse (stop.under segment))
    (h : ∀ first second declared value rules, Weaker excuse first second →
      Agrees excuse (d first declared value rules) (e second declared value rules))
    {first second : Bool} (hw : Weaker excuse first second) (record : Value) (field : Field)
    (rules : RuleSet) :
    Agrees excuse (.field d first record field rules) (.field e second record field rules) := by
  unfold Visit.field
  split
  · exact .refl _
  · rename_i content _
    rcases h _ _ field.declared content rules (hw.under record.isMutable) with
      ⟨stop, hstop, hexcuse⟩ | hsame
    · refine .inl ⟨stop.under field.name, ?_, hunder _ _ hexcuse⟩
      simp [hstop]
    · rw [hsame]
      exact .refl _

theorem agrees_steps (hunder : ∀ stop segment, excuse stop → excuse (stop.under segment))
    (h : ∀ first second declared value rules, Weaker excuse first second →
      Agrees excuse (d first declared value rules) (e second declared value rules))
    (tagKey typeName : String) {first second : Bool} (hw : Weaker excuse first second)
    (plan : List RecordStep) (record : Value) :
    Agrees excuse (.steps d tagKey typeName first plan record)
      (.steps e tagKey typeName second plan record) := by
  induction plan generalizing record with
  | nil => exact .refl _
  | cons step plan ih =>
      unfold Visit.steps
      refine Agrees.andThen ?_ ih
      cases step with
      | descend target rules => exact agrees_field hunder h hw record target rules
      | readFields | readRules _ | unknown _ => exact .refl _

theorem agrees_record (hunder : ∀ stop segment, excuse stop → excuse (stop.under segment))
    (h : ∀ first second declared value rules, Weaker excuse first second →
      Agrees excuse (d first declared value rules) (e second declared value rules))
    (walk : Walk) {first second : Bool} (hw : Weaker excuse first second) (value : Value)
    (rules : RuleSet) :
    Agrees excuse
      (.record d walk.tokenize walk.tagKey walk.context walk.view? first value rules)
      (.record e walk.tokenize walk.tagKey walk.context walk.view? second value rules) := by
  unfold Visit.record
  split
  · exact .refl _
  · simp only
    split
    · exact .refl _
    · split
      · exact .refl _
      · split
        · refine Agrees.after _ ?_
          unfold Visit.presentRecord
          exact (agrees_steps hunder h _ _ hw _ _).andThen fun _ => .refl _
        · exact .refl _

end

/-- A walk with fewer levels or less leave to write does the same, or is stopped for the want of it. -/
theorem visit_agrees (walk : Walk) {excuse : Stop → Prop}
    (hunder : ∀ stop segment, excuse stop → excuse (stop.under segment)) {fewer more : Nat}
    (hlevels : fewer = more ∨ (fewer ≤ more ∧ excuse (.fault .tooDeep))) {first second : Bool}
    (hw : Weaker excuse first second) (declared : Annotation) (value : Value) (rules : RuleSet) :
    Agrees excuse (walk.visit fewer first declared value rules)
      (walk.visit more second declared value rules) := by
  induction fewer generalizing more first second declared value rules with
  | zero =>
      rcases hlevels with rfl | ⟨-, hexcuse⟩
      · exact .refl _
      · exact .inl ⟨_, rfl, hexcuse⟩
  | succ fewer ih =>
      obtain ⟨more, rfl⟩ : ∃ n, more = n + 1 := ⟨more - 1, by omega⟩
      have hnext : fewer = more ∨ (fewer ≤ more ∧ excuse (.fault .tooDeep)) := by
        rcases hlevels with heq | ⟨hle, hexcuse⟩
        · exact .inl (by omega)
        · exact .inr ⟨by omega, hexcuse⟩
      have h (first second : Bool) (declared : Annotation) (value : Value) (rules : RuleSet)
          (hw : Weaker excuse first second) := ih hnext hw declared value rules
      simp only [Walk.visit]
      split
      · exact .refl _
      · rename_i evaluator _
        cases evaluator with
        | optional => exact agrees_optional h hw _ value rules
        | reference => exact agrees_reference h _ value rules
        | scalar kind => exact agrees_scalar kind hw value rules
        | record => exact agrees_record hunder h walk hw value rules
        | sequence => exact agrees_sequence hunder h hw _ value rules
        | mapping => exact agrees_mapping hunder h _ value rules

/-- Levels beyond those that suffice make no difference. -/
theorem visit_eq_of_levels (walk : Walk) {fewer more : Nat} (hle : fewer ≤ more) {writable : Bool}
    {declared : Annotation} {value : Value} {rules : RuleSet}
    (henough : (walk.visit fewer writable declared value rules).stop ≠ some (.fault .tooDeep)) :
    walk.visit fewer writable declared value rules =
      walk.visit more writable declared value rules := by
  have hunder : ∀ (stop : Stop) segment, stop = .fault .tooDeep →
      stop.under segment = .fault .tooDeep := by
    rintro stop segment rfl
    rfl
  rcases walk.visit_agrees hunder (.inr ⟨hle, rfl⟩) (.refl writable) declared value rules with
    ⟨stop, hstop, rfl⟩ | hsame
  · exact absurd hstop henough
  · exact hsame

section

variable {walk : Walk} {value : Value} (levels : Nat) (writable : Bool) (rules : RuleSet)

theorem visit_of_resolve_eq {a b : Annotation} (h : value.resolve b = value.resolve a) :
    walk.visit levels writable b value rules = walk.visit levels writable a value rules := by
  cases levels with
  | zero => rfl
  | succ levels => simp only [visit, h]

theorem visit_of_layer (hoptional : walk.evaluator? .optional = some .optional) (hnull : value.isNull = false)
    {declared : Annotation} (h : (value.resolve declared).category = .optional) :
    walk.visit (levels + 1) writable declared value rules =
      walk.visit levels writable (value.resolve declared).element value rules := by
  simp only [visit, h, hoptional, evaluate, Visit.optional, hnull, Bool.false_eq_true, if_false]

end

def IsUnwritable (stop : Stop) : Prop :=
  ∃ path, stop = .failed ⟨.notWritable, path⟩

/-- Without leave to write, a walk does the same, or it is stopped where it would have to write. -/
theorem visit_agrees_of_readOnly (walk : Walk) (levels : Nat) (declared : Annotation)
    (value : Value) (rules : RuleSet) :
    Agrees IsUnwritable (walk.visit levels false declared value rules)
      (walk.visit levels true declared value rules) := by
  refine walk.visit_agrees ?_ (.inl rfl) (.inr ⟨rfl, [], rfl⟩) declared value rules
  rintro stop segment ⟨path, rfl⟩
  exact ⟨segment :: path, rfl⟩

end Walk

end RuleCheck
