import RuleCheck.Proofs.Walk.SpotVisits

/-! # Walks with some of the evaluators only

A value of a category that nothing evaluates is passed over, with all that is inside of it.  Every other value is
visited as it would be with more evaluators in use, apart from what is passed over below it.
-/

namespace RuleCheck

namespace Walk

variable {walk : Walk} {levels : Nat} {place : Place}

/-! ## What is passed over -/

/-- What stands at a spot that nothing evaluates stays there, whatever visits are made to it. -/
theorem Made.eq_of_unserved {declared : Annotation} {value new : Value} {visits : List (Nat × Place)}
    (h : walk.Made declared value visits new)
    (hserved : walk.evaluator? (value.resolve declared).category = none) : new = value := by
  induction h with
  | untouched => rfl
  | visited levels writable value rules =>
      cases levels with
      | zero => rfl
      | succ levels =>
          exact congrArg Visit.value
            (@visitAt_of_unserved walk levels ⟨writable, declared, value, rules⟩ hserved)
  | left _ ih => rw [ih hserved, Value.graft_self]
  | andThen _ _ ih ihLater =>
      have hsame := ih hserved
      subst hsame
      exact ihLater hserved

/-- A visit, passed or stopped, leaves every spot alone that nothing evaluates, and so does it in the old object. -/
theorem leads_of_unserved (hmatched : walk.Matched) (hdistinct : walk.DistinctFields)
    (hassign : walk.AssignsNothing) (levels : Nat) (place : Place) {turns : List Turn} {last : Spot}
    (hleads : walk.Leads ⟨place.declared, place.value⟩ turns last)
    (hserved : walk.evaluator? last.resolved.category = none) :
    walk.Leads ⟨place.declared, (walk.visitAt levels place).value⟩ turns last ∧
      walk.Leads ⟨place.declared, place.value.graft (walk.visitAt levels place).value⟩ turns last := by
  obtain ⟨made, hmade, hvisits⟩ := leads_visitAt hmatched hdistinct hassign levels place hleads
  have hsame : made = last.value := hvisits.eq_of_unserved hserved
  subst hsame
  refine ⟨hmade, ?_⟩
  obtain ⟨left, hleft, hor⟩ :=
    hleads.graft hdistinct (shaped_visitAt hmatched hdistinct hassign levels place) hmade
  rw [Value.graft_self, or_self] at hor
  subst hor
  exact hleft

/-! ## More evaluators -/

def reselected (walk : Walk) (evaluator? : Category → Option Evaluator) : Walk :=
  { walk with evaluator? := evaluator? }

theorem evaluate_congr {evaluator : Evaluator} {descend : Bool → Annotation → Value → RuleSet → Visit}
    (hserved : walk.evaluator? place.resolved.category = some evaluator)
    (h : ∀ next ∈ walk.placesBelow levels place,
      descend next.writable next.declared next.value next.rules = walk.visitAt levels next) :
    walk.evaluate descend evaluator place.writable place.resolved place.value place.rules =
      walk.evaluate (walk.visit levels) evaluator place.writable place.resolved place.value place.rules := by
  have hrehooks : Rehooks id := ⟨fun _ => rfl, fun _ => rfl, fun _ _ => .same _⟩
  have hsame : walk.rehooked id = walk := by
    rw [rehooked, show (fun base => (walk.view? base).map id) = walk.view? from
      funext fun base => congrFun Option.map_id (walk.view? base)]
  have hevaluate := evaluate_rehooked hrehooks hserved h
    fun run _ base view _ _ method hmethod method' hmethod' => by
      cases hmethod.symm.trans hmethod'
      rfl
  rwa [hsame] at hevaluate

/-- With other evaluators a visit is the same, if they are the same wherever the walk comes to. -/
theorem visitAt_reselected {evaluator? : Category → Option Evaluator} (levels : Nat) (place : Place)
    (h : ∀ rest last, walk.ComesTo levels place rest last →
      evaluator? last.resolved.category = walk.evaluator? last.resolved.category) :
    (walk.reselected evaluator?).visitAt levels place = walk.visitAt levels place := by
  induction levels generalizing place with
  | zero => rfl
  | succ levels ih =>
      have hsame := h _ _ (.here _ _)
      cases hserved : walk.evaluator? place.resolved.category with
      | none =>
          have hother : (walk.reselected evaluator?).evaluator? place.resolved.category = none :=
            hsame.trans hserved
          rw [visitAt_of_unserved hserved, visitAt_of_unserved hother]
      | some evaluator =>
          have hother : (walk.reselected evaluator?).evaluator? place.resolved.category = some evaluator :=
            hsame.trans hserved
          rw [visitAt_of_served hserved, visitAt_of_served hother]
          exact evaluate_congr hserved fun next hnext =>
            ih next fun rest last hlast => h rest last (.inside hnext hlast)

end Walk

end RuleCheck
