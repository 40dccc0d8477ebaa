import RuleCheck.Proofs.Session.Places
import RuleCheck.Proofs.Session.Shaping
import RuleCheck.Proofs.Walk.Selected

/-! # Calls with a selection of evaluators

A validator with some of the evaluators leaves everything alone that none of them is made for, and treats all
else as one with all of them.  An empty registry is the exception: it counts as not given.
-/

namespace RuleCheck

namespace Registry

/-- Whether every evaluator serves the category that it is made for. -/
def Selection (registry : Registry) : Prop :=
  ∀ entry ∈ registry.entries, entry.1 = entry.2.category

instance (registry : Registry) : Decidable registry.Selection :=
  inferInstanceAs (Decidable (∀ _ ∈ _, _))

variable {registry : Registry} {category : Category} {evaluator : Evaluator}

theorem Selection.category_eq (h : registry.Selection) (hserved : registry.get? category = some evaluator) :
    evaluator.category = category := by
  obtain ⟨before, rest, hentries, -⟩ := List.lookup_eq_some_iff.1 hserved
  exact (h (category, evaluator) (by simp [hentries])).symm

theorem Selection.standard_eq (h : registry.Selection) (hserved : registry.get? category = some evaluator) :
    standard.get? category = some evaluator := by
  rw [← h.category_eq hserved]
  cases evaluator with
  | scalar kind => cases kind <;> rfl
  | _ => rfl

end Registry

namespace Schema

variable {schema : Schema}

/-- Where the walk of a call comes to, the same evaluators are in use as by default. -/
def FullyServed (schema : Schema) (validator : Validator) (context : Value) (place : Place) : Prop :=
  ∀ rest last, schema.ComesTo validator context place rest last →
    validator.registry.get? last.resolved.category = Registry.standard.get? last.resolved.category

/-- Whatever is inside of the old value and is not evaluated is found in the new one as it was. -/
def Spares (schema : Schema) (validator : Validator) (context : Value) (declared : Annotation)
    (old new : Value) : Prop :=
  ∀ turns last, (schema.walk validator context).Leads ⟨declared, old⟩ turns last →
    validator.registry.get? last.resolved.category = none →
    (schema.walk validator context).Leads ⟨declared, new⟩ turns last

/-- A call that comes to nothing but what all evaluators serve is one with all of them. -/
theorem visit_of_fullyServed {validator : Validator} {context : Value} {place : Place}
    (h : schema.FullyServed validator context place) :
    schema.visit validator context place.writable place.declared place.value place.rules =
      schema.visit ⟨validator.config, .standard⟩ context place.writable place.declared place.value
        place.rules := by
  exact (@Walk.visitAt_reselected (schema.walk validator context) Registry.standard.get? _ place
    fun rest last hlast => (h rest last hlast).symm).symm

theorem spares_visit (hassign : schema.AssignsNothing) (hdistinct : schema.DistinctNames)
    {validator : Validator} (hselection : validator.registry.Selection) (context : Value) (place : Place) :
    schema.Spares validator context place.declared place.value
        (schema.visit validator context place.writable place.declared place.value place.rules).value ∧
      schema.Spares validator context place.declared place.value (place.value.graft
        (schema.visit validator context place.writable place.declared place.value place.rules).value) := by
  have hmatched : (schema.walk validator context).Matched := fun _ _ => hselection.category_eq
  have hleads {turns : List Turn} {last : Spot} := @Walk.leads_of_unserved (schema.walk validator context)
    hmatched (walk_distinctFields validator.config context hdistinct)
    (walk_assignsNothing validator.config context hassign)
    (Walk.budget schema validator.config.tagKey place.declared place.value) place turns last
  exact ⟨fun turns last hold hserved => (hleads hold hserved).1,
    fun turns last hold hserved => (hleads hold hserved).2⟩

end Schema

namespace Session

variable {schema : Schema} {session : Session}

/--
A validator uses the selection of evaluators that it is given.  Wherever a call comes to, a value that none of
them is made for is passed over, and any other one is visited by its own evaluator; so a call is as by default
if it comes to nothing that is passed over.  What is passed over is not changed in what the call returns or
leaves, whatever the call ends in.  An empty selection is the same as none given.
-/
theorem selections_respected (hreach : Reachable schema session) {registry : Registry}
    (hselection : registry.Selection) (settings : Option Config) :
    let validator := Validator.make settings (some registry)
    let default := Validator.make settings none
    (registry.entries = [] → validator = default) ∧
    (registry.entries ≠ [] → validator.registry = registry ∧
      (∀ context place rest last, schema.ComesTo validator context place (rest + 1) last →
        (registry.get? last.resolved.category = none →
          (schema.walk validator context).visitAt (rest + 1) last = (Visit.pass last.value).after
            [.skipped last.resolved.category last.value.classOf.name]) ∧
        ∀ evaluator, registry.get? last.resolved.category = some evaluator →
          default.registry.get? last.resolved.category = some evaluator ∧
          (schema.walk validator context).visitAt (rest + 1) last =
            (schema.walk default context).evaluate ((schema.walk validator context).visit rest) evaluator
              last.writable last.resolved last.value last.rules) ∧
      (∀ value rules declared context,
        schema.FullyServed validator context ⟨true, declared, value, .parse rules⟩ →
        (session.validateValue validator value rules declared context).1 =
          (session.validateValue default value rules declared context).1) ∧
      (∀ value context, schema.FullyServed validator context ⟨false, .absent, value, .empty⟩ →
        (session.validateContext validator context value).1 =
          (session.validateContext default context value).1) ∧
      (schema.AssignsNothing → schema.DistinctNames →
        (∀ value rules declared context,
          let outcome := (session.validateValue validator value rules declared context).1
          schema.Spares validator context declared value outcome.value ∧
            schema.Spares validator context declared value outcome.state) ∧
        (∀ value context,
          let outcome := (session.validateContext validator context value).1
          schema.Spares validator context .absent value outcome.value ∧
            schema.Spares validator context .absent value outcome.state) ∧
        ∀ values : List Value,
          let states := (validate validator values session).1.1
          states.length = values.length ∧ ∀ (i : Nat) (old state : Value), values[i]? = some old →
            states[i]? = some state → schema.Spares validator .null .absent old state)) := by
  intro validator default
  have hdefault : default = ⟨settings.getD .standard, .standard⟩ := rfl
  refine ⟨fun hempty => ?_, fun hsome => ?_⟩
  · simp [validator, default, Validator.make, Registry.orStandard, hempty, Registry.standard, Evaluator.all]
  have hregistry : validator.registry = registry := by
    simp [validator, Validator.make, Registry.orStandard, hsome]
  have hselected : validator.registry.Selection := hregistry ▸ hselection
  have hget (context : Value) : (schema.walk validator context).evaluator? = registry.get? :=
    congrArg Registry.get? hregistry
  refine ⟨hregistry, ?_, ?_, ?_, ?_⟩
  · intro context place rest last _
    refine ⟨fun hserved => ?_, fun evaluator hserved => ⟨hselection.standard_eq hserved, ?_⟩⟩
    · exact Walk.visitAt_of_unserved ((congrFun (hget context) _).trans hserved)
    · exact Walk.visitAt_of_served ((congrFun (hget context) _).trans hserved)
  · intro value rules declared context hserved
    have hvisit := Schema.visit_of_fullyServed hserved
    rw [hreach.validateValue_eq, hreach.validateValue_eq, hdefault]
    exact congrArg (fun visit : Visit => (⟨visit.value, value.graft visit.value, visit.stop⟩ : Outcome)) hvisit
  · intro value context hserved
    have hvisit := Schema.visit_of_fullyServed hserved
    rw [hreach.validateContext_eq, hreach.validateContext_eq, hdefault]
    exact congrArg (fun visit : Visit => (⟨visit.value, value.graft visit.value, visit.stop⟩ : Outcome)) hvisit
  · intro hassign hdistinct
    have hspares := fun context place => Schema.spares_visit hassign hdistinct hselected context place
    refine ⟨fun value rules declared context => ?_, fun value context => ?_, fun values => ?_⟩
    · rw [hreach.validateValue_eq]
      exact hspares context ⟨true, declared, value, .parse rules⟩
    · rw [hreach.validateContext_eq]
      exact hspares context ⟨false, .absent, value, .empty⟩
    · refine hreach.validate_each validator (fun value turns last hold _ => hold) (fun value => ?_) values
      exact (hspares .null ⟨false, .absent, value, .empty⟩).2

/-- The evaluator of texts alone, and no evaluator at all. -/
def textsOnly : Registry :=
  ⟨[(.text, .scalar .text)]⟩

/-- With the evaluator of texts alone, a number is returned as it is, whatever its rules are. -/
theorem selections_respected_number :
    Reachable .empty (.start .empty) ∧ textsOnly.Selection ∧
      ((start .empty).validateValue (.make none (some textsOnly)) (.ofInt 5) "default=7,val>10" .absent
        .null).1.value = .ofInt 5 := by
  have hselection : textsOnly.Selection := by decide
  have hassign : Schema.empty.AssignsNothing := nofun
  have hdistinct : Schema.empty.DistinctNames := by simp [Schema.DistinctNames, Schema.empty]
  refine ⟨.start, hselection, ?_⟩
  obtain ⟨-, -, -, -, hspares⟩ := (selections_respected .start hselection none).2 (by decide)
  have hspared := ((hspares hassign hdistinct).1 (.ofInt 5) "default=7,val>10" .absent .null).1 []
    ⟨.absent, .ofInt 5⟩ (.here _) (by decide)
  generalize hvalue : ((start .empty).validateValue (.make none (some textsOnly)) (.ofInt 5)
    "default=7,val>10" .absent .null).1.value = value at hspared ⊢
  cases hspared
  rfl

/-- With an empty registry a text is changed although there is no evaluator for it. -/
theorem empty_selection_evaluates :
    Registry.empty.Selection ∧ Registry.empty.get? ((Value.ofText " a ").resolve .absent).category = none ∧
      ((start .empty).validateValue (.make none (some .empty)) (.ofText " a ") "" .absent
        .null).1.value.scalar? = some (.text "a") := by
  decide +kernel

end Session

end RuleCheck
