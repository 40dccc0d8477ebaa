import RuleCheck.Proofs.Category.Optional
import RuleCheck.Proofs.Session.Parts
import RuleCheck.Proofs.Session.Places
import RuleCheck.Proofs.Session.Shaping
import RuleCheck.Proofs.Walk.Boxes

/-! # Boxes as optional values

The content of a box is validated as an optional value that can be written, wherever the box is.
-/

namespace RuleCheck

namespace Schema

variable {schema : Schema} (config : Config) (context : Value)

theorem visit_optional (hassign : schema.AssignsNothing) {a : Annotation} (hflat : a.IsFlat) {value : Value}
    (hnull : value.isNull = false) (writable : Bool) (rules : RuleSet) :
    schema.visit ⟨config, .standard⟩ context writable a.optional value rules =
      schema.visit ⟨config, .standard⟩ context writable a value rules := by
  rcases Value.resolve_optional_eq hflat value with hsame | hlayer
  · rw [hsame]
  · have hcategory : (value.resolve a.optional).category = .optional := by
      rw [hlayer]
      rfl
    rw [visit_layer config context hassign hnull hcategory, hlayer]
    rfl

/-- The visit to a box is the one to its content as an optional value, whether the box can be exchanged or not. -/
theorem visit_boxed (hassign : schema.AssignsNothing) {a : Annotation} (hflat : a.IsFlat) (content : Value)
    (writable : Bool) (rules : RuleSet) :
    let inner := schema.visit ⟨config, .standard⟩ context true a.optional content rules
    schema.visit ⟨config, .standard⟩ context writable a.boxed (.box content) rules =
      ⟨.box inner.value, false, inner.events, inner.stop⟩ := by
  intro inner
  cases hnull : content.isNull with
  | true =>
      obtain rfl := Value.eq_null_of_isNull hnull
      have hevaluator : Registry.standard.get? ((Value.box .null).resolve a.boxed).category =
          some .reference := rfl
      have hmissing : Registry.standard.get? (Value.null.resolve a.optional).category = some .optional := by
        rw [Value.category_null_optional hflat]
        rfl
      obtain ⟨_, -, hbox⟩ :=
        @visit_eq_evaluate schema config context (.box .null) a.boxed .reference hevaluator writable rules
      obtain ⟨_, -, hinner⟩ :=
        @visit_eq_evaluate schema config context .null a.optional .optional hmissing true rules
      have hvalue : inner = .missing (if rules.required then some (.refuse .missing) else none) := hinner
      rw [hbox, hvalue]
      simp only [Walk.evaluate, Visit.reference]
      split <;> rfl
  | false =>
      have hinner : inner = schema.visit ⟨config, .standard⟩ context true a content rules :=
        visit_optional config context hassign hflat hnull true rules
      rw [hinner]
      exact visit_content config context hassign hnull rfl writable rules

/-- The visits that the walk of a call makes to a spot, in order, each with the levels that are left there. -/
def visitsAt (schema : Schema) (validator : Validator) (context : Value) (place : Place) (turns : List Turn) :
    List (Nat × Place) :=
  (schema.walk validator context).visitsAt
    (Walk.budget schema validator.config.tagKey place.declared place.value) place turns

end Schema

namespace Session

/-- The call for a value that may be missing, with rules that were read before. -/
def optionally (session : Session) (config : Config) (context : Value) (a : Annotation) (rules : RuleSet)
    (value : Value) : Outcome :=
  (session.validateValue ⟨config, .standard⟩ value rules.text a.optional context).1

/--
What a call from a place makes of the boxes of a kind: each is visited as its content would be if it could be
missing, ends up with what the last of these visits left of the content, and is never exchanged itself.  What is
exchanged is so for a scalar in it that is not in a box.
-/
structure BoxesOptional (schema : Schema) (session : Session) (config : Config) (context : Value)
    (a : Annotation) (place : Place) (outcome : Outcome) : Prop where
  visited : ∀ rest writable content rules,
    schema.ComesTo ⟨config, .standard⟩ context place rest ⟨writable, a.boxed, .box content, rules⟩ →
      let inside := session.optionally config context a rules content
      let visit := (schema.walk ⟨config, .standard⟩ context).visitAt rest
        ⟨writable, a.boxed, .box content, rules⟩
      visit.stop = inside.stop ∧ visit.value = .box inside.value ∧ visit.replaced = false ∧
        (∀ stop, inside.stop = some stop → ∃ segments, outcome.stop = some (stop.through segments)) ∧
        ∃ turns, (rest, ⟨writable, a.boxed, .box content, rules⟩) ∈
          schema.visitsAt ⟨config, .standard⟩ context place turns
  left : ∀ turns content,
    (schema.walk ⟨config, .standard⟩ context).Leads ⟨place.declared, place.value⟩ turns
        ⟨a.boxed, .box content⟩ →
      let last := (schema.visitsAt ⟨config, .standard⟩ context place turns).foldl
        (fun content visit => (session.optionally config context a visit.2.rules content).value) content
      (schema.walk ⟨config, .standard⟩ context).Leads ⟨place.declared, outcome.value⟩ turns
          ⟨a.boxed, .box last⟩ ∧
        (schema.walk ⟨config, .standard⟩ context).Leads ⟨place.declared, outcome.state⟩ turns
          ⟨a.boxed, .box last⟩
  exchanged : ∀ rest last,
    schema.ComesTo ⟨config, .standard⟩ context place (rest + 1) last →
    ((schema.walk ⟨config, .standard⟩ context).visitAt (rest + 1) last).replaced = true →
      (∀ content, last.value ≠ .box content) ∧
        ((∃ kind, Registry.standard.get? last.resolved.category = some (.scalar kind)) ∨
          ∃ next ∈ (schema.walk ⟨config, .standard⟩ context).placesBelow rest last,
            ((schema.walk ⟨config, .standard⟩ context).visitAt rest next).replaced = true)

variable {schema : Schema} {session : Session} (config : Config)

/-- Rules that come to a place can be given to a call again. -/
theorem Reachable.optionally_eq (hreach : Reachable schema session) (context : Value) (a : Annotation)
    {rules : RuleSet} (hrules : rules.Written) (value : Value) :
    session.optionally config context a rules value =
      let visit := schema.visit ⟨config, .standard⟩ context true a.optional value rules
      ⟨visit.value, value.graft visit.value, visit.stop⟩ := by
  rw [optionally, hreach.validateValue_eq, RuleSet.parse_text hrules]

theorem Reachable.boxesOptional (hreach : Reachable schema session) (hassign : schema.AssignsNothing)
    (hdistinct : schema.DistinctNames) {a : Annotation} (hflat : a.IsFlat) (context : Value) {place : Place}
    (hrules : place.rules.Written) {outcome : Outcome}
    (houtcome : outcome =
      let visit := schema.visit ⟨config, .standard⟩ context place.writable place.declared place.value place.rules
      ⟨visit.value, place.value.graft visit.value, visit.stop⟩) :
    BoxesOptional schema session config context a place outcome := by
  have hmatched := Walk.matched_of_standard (schema.walk_registry config context)
  have hfields := Schema.walk_distinctFields config context hdistinct
  have hnothing := Schema.walk_assignsNothing config context hassign
  have hvisit {rest : Nat} {writable : Bool} {content : Value} {rules : RuleSet}
      (hcomes : schema.ComesTo ⟨config, .standard⟩ context place rest
        ⟨writable, a.boxed, .box content, rules⟩) :
      (schema.walk ⟨config, .standard⟩ context).visitAt rest ⟨writable, a.boxed, .box content, rules⟩ =
        let inner := schema.visit ⟨config, .standard⟩ context true a.optional content rules
        ⟨.box inner.value, false, inner.events, inner.stop⟩ :=
    (hcomes.visitAt_eq hassign Registry.grounded_standard).trans
      (Schema.visit_boxed config context hassign hflat content writable rules)
  constructor
  · intro rest writable content rules hcomes inside visit
    have hinside : inside = _ := hreach.optionally_eq config context a (hcomes.written hrules) content
    have hbox : visit = _ := hvisit hcomes
    rw [hbox, hinside, houtcome]
    refine ⟨rfl, rfl, rfl, fun stop hstop => ?_, Walk.ComesTo.exists_turns hcomes⟩
    apply hcomes.stops hassign Registry.grounded_standard
    rw [Schema.visit_boxed config context hassign hflat]
    exact hstop
  · intro turns content hleads last
    obtain ⟨made, hmade, hvisits⟩ := Walk.leads_visitAt hmatched hfields hnothing
      (Walk.budget schema config.tagKey place.declared place.value) place hleads
    have hlast : made = .box last := by
      refine hvisits.of_box rfl (fun content rules =>
        (session.optionally config context a rules content).value) ?_
      intro levels writable content rules hmem
      have hcomes : schema.ComesTo ⟨config, .standard⟩ context place levels
          ⟨writable, a.boxed, .box content, rules⟩ := Walk.comesTo_of_mem_visitsAt hmem
      rw [hreach.optionally_eq config context a (hcomes.written hrules)]
      exact congrArg Visit.value (hvisit hcomes)
    subst hlast
    obtain ⟨left, hleft, hor⟩ := hleads.graft hfields (Walk.shaped_visitAt hmatched hfields hnothing
      (Walk.budget schema config.tagKey place.declared place.value) place) hmade
    have hsame : left = .box last := by
      simpa only [Value.graft, or_self] using hor
    subst hsame
    rw [houtcome]
    exact ⟨hmade, hleft⟩
  · intro rest last _ hreplaced
    refine ⟨fun content hvalue => ?_, Walk.written_below hreplaced⟩
    have hshaped := Walk.shaped_visitAt hmatched hfields hnothing (rest + 1) last
    cases (hshaped.unwritten_of_box hvalue).symm.trans hreplaced

/--
A box that is reached in one way is validated as its content would be if the content could be missing, whether it is given to a call or comes
up inside of another value, and holds afterwards what is left of the content.  No value around it is exchanged for
its sake.
-/
theorem boxes_are_optional (hreach : Reachable schema session) (hassign : schema.AssignsNothing)
    (hdistinct : schema.DistinctNames) {a : Annotation} (hflat : a.IsFlat) :
    (∀ content rules context,
      let inside := (session.validateValue ⟨config, .standard⟩ content rules a.optional context).1
      let outside := (session.validateValue ⟨config, .standard⟩ (.box content) rules a.boxed context).1
      outside.stop = inside.stop ∧ outside.value = .box inside.value ∧ outside.state = .box inside.value) ∧
    (∀ value rules declared context,
      BoxesOptional schema session config context a ⟨true, declared, value, .parse rules⟩
        (session.validateValue ⟨config, .standard⟩ value rules declared context).1) ∧
    ∀ value context,
      BoxesOptional schema session config context a ⟨false, .absent, value, .empty⟩
        (session.validateContext ⟨config, .standard⟩ context value).1 := by
  refine ⟨fun content rules context => ?_, fun value rules declared context => ?_, fun value context => ?_⟩
  · intro inside outside
    have hinside : inside = _ := hreach.validateValue_eq ⟨config, .standard⟩ content rules a.optional context
    have houtside : outside = _ :=
      hreach.validateValue_eq ⟨config, .standard⟩ (.box content) rules a.boxed context
    rw [hinside, houtside, Schema.visit_boxed config context hassign hflat]
    exact ⟨rfl, rfl, by simp only [Value.graft]⟩
  · exact hreach.boxesOptional config hassign hdistinct hflat context (RuleSet.written_parse rules)
      (hreach.validateValue_eq ⟨config, .standard⟩ value rules declared context)
  · have hempty : RuleSet.empty.Written := fun token htoken => by cases htoken
    exact hreach.boxesOptional config hassign hdistinct hflat context hempty
      (hreach.validateContext_eq ⟨config, .standard⟩ context value)

def numberOrText : Annotation :=
  .unite [.bare (.builtIn .int), .bare (.builtIn .text)]

/-- A box is refused if it is empty and a value is required, and a text in one is put in its normal form. -/
theorem boxes_are_optional_text :
    settings.AssignsNothing ∧ settings.DistinctNames ∧ Reachable settings (.start settings) ∧
      numberOrText.IsFlat ∧
      ((start settings).validateValue .standard (.box .null) "required" numberOrText.boxed .null).1.stop =
        some (.failed ⟨.missing, []⟩) ∧
      ∃ content,
        ((start settings).validateValue .standard (.box (.ofText " a ")) "toupper" numberOrText.boxed .null).1.value =
          .box content ∧ content.scalar? = some (.text "A") := by
  have hassign : settings.AssignsNothing :=
    Schema.assignsNothing_of_methods (by simp [settings, RecordDecl.methods])
  have hdistinct : settings.DistinctNames := by simp [Schema.DistinctNames, settings]
  have hflat : numberOrText.IsFlat := Annotation.isFlat_unite (by simp) (by simp [ Annotation.IsFlat])
  obtain ⟨hboxes, -, -⟩ := boxes_are_optional .standard .start hassign hdistinct hflat
  obtain ⟨hstop, -, -⟩ := hboxes .null "required" .null
  obtain ⟨-, hvalue, -⟩ := hboxes (.ofText " a ") "toupper" .null
  refine ⟨hassign, hdistinct, .start, hflat, hstop.trans ?_, _, hvalue, ?_⟩
  · decide +kernel
  · decide +kernel

end Session

end RuleCheck
