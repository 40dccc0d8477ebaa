import RuleCheck.Proofs.Category.Wrapped
import RuleCheck.Proofs.Session.Budget
import RuleCheck.Proofs.Session.Reachable
import RuleCheck.Proofs.Walk.Lockstep

/-! # Calls for values under wrapped annotations

Layers around an annotation change nothing for a value that is there: the walk takes them off, at the cost of a
level for each layer of the missing value.  Only that integers are unsigned is kept in mind, through all layers.
-/

namespace RuleCheck

open Annotation (Layer wrap resolve_counted)

namespace Walk

variable {walk : Walk} {value : Value}

/-- Below all layers stands the annotation itself, with integers unsigned if a layer says so. -/
theorem exists_visit_wrap (hoptional : walk.evaluator? .optional = some .optional)
    (hnull : value.isNull = false) {a : Annotation} (hflat : a.IsFlat) (layers : List Layer)
    (unsigned writable : Bool) (rules : RuleSet) :
    ∃ extra, ∀ levels,
      walk.visit (levels + extra) writable ((a.wrap layers).counted unsigned) value rules =
        walk.visit levels writable (a.counted (unsigned || layers.any Layer.isUnsigned)) value rules := by
  induction layers generalizing unsigned with
  | nil => exact ⟨0, fun levels => by simp [wrap]⟩
  | cons layer layers ih =>
      rcases Annotation.resolveAs_around (hflat.wrap layers) value unsigned layer with
        hthrough | ⟨hlayer, hoption⟩
      · obtain ⟨extra, hinner⟩ := ih (unsigned || layer.isUnsigned)
        refine ⟨extra, fun levels => ?_⟩
        rw [List.any_cons, ← Bool.or_assoc, ← hinner levels]
        apply visit_of_resolve_eq
        rw [resolve_counted, resolve_counted]
        exact hthrough
      · obtain ⟨extra, hinner⟩ := ih unsigned
        refine ⟨extra + 1, fun levels => ?_⟩
        have hsilent : layer.isUnsigned = false := by
          rw [hoption]
          rfl
        have hresolved : value.resolve ((a.wrap (layer :: layers)).counted unsigned) =
            .ofElement .optional ((a.wrap layers).counted unsigned) := by
          rw [resolve_counted]
          exact hlayer
        rw [List.any_cons, hsilent, Bool.false_or, ← hinner levels, ← Nat.add_assoc,
          visit_of_layer _ _ _ hoptional hnull (congrArg Resolved.category hresolved), hresolved]
        rfl

end Walk

namespace Schema

variable {schema : Schema} (config : Config) (context : Value)

/-- If neither runs out of levels, the visits with and without layers are the same. -/
theorem visit_wrap {a : Annotation} (hflat : a.IsFlat) {value : Value} (hnull : value.isNull = false)
    (layers : List Layer) (writable : Bool) (rules : RuleSet)
    (hwrapped : (schema.visit ⟨config, .standard⟩ context writable (a.wrap layers) value rules).stop ≠
      some (.fault .tooDeep))
    (hplain : (schema.visit ⟨config, .standard⟩ context writable
      (a.counted (layers.any Layer.isUnsigned)) value rules).stop ≠ some (.fault .tooDeep)) :
    schema.visit ⟨config, .standard⟩ context writable (a.wrap layers) value rules =
      schema.visit ⟨config, .standard⟩ context writable (a.counted (layers.any Layer.isUnsigned)) value
        rules := by
  obtain ⟨extra, hinner⟩ := (schema.walk ⟨config, .standard⟩ context).exists_visit_wrap rfl hnull hflat
    layers false writable rules
  unfold visit at hwrapped hplain ⊢
  generalize Walk.budget schema config.tagKey (a.wrap layers) value = above at hwrapped ⊢
  generalize Walk.budget schema config.tagKey (a.counted (layers.any Layer.isUnsigned)) value = below
    at hplain ⊢
  rw [Walk.visit_eq_of_levels _ (show above ≤ above + below + extra by omega) hwrapped,
    Walk.visit_eq_of_levels _ (show below ≤ above + below by omega) hplain]
  exact hinner (above + below)

end Schema

namespace Session

variable {schema : Schema} {session : Session} (config : Config)

/--
A call for a value that is there does the same whatever layers its annotation is wrapped in: the outcome, the
hooks that are called, the caches and the log are the same.  An `unsigned` among the layers counts, wherever it
stands, as if it stood on the annotation itself.  This holds unless one of the calls runs out of levels, which no
call does if hooks assign nothing.
-/
theorem validateValue_wrapped (hreach : Reachable schema session) {declared : Annotation}
    (hflat : declared.IsFlat) {value : Value} (hnull : value.isNull = false) (layers : List Layer)
    (rules : String) (context : Value) :
    let call := fun declared => session.validateValue ⟨config, .standard⟩ value rules declared context
    let plain := declared.counted (layers.any Layer.isUnsigned)
    ((call (declared.wrap layers)).1.stop ≠ some (.fault .tooDeep) →
      (call plain).1.stop ≠ some (.fault .tooDeep) → call (declared.wrap layers) = call plain) ∧
    (schema.AssignsNothing → ∀ declared, (call declared).1.stop ≠ some (.fault .tooDeep)) := by
  intro call plain
  have hcall (declared : Annotation) : (call declared).1.stop =
      (schema.visit ⟨config, .standard⟩ context true declared value (.parse rules)).stop := by
    show (session.validateValue _ value rules declared context).1.stop = _
    rw [hreach.validateValue_eq]
  refine ⟨fun hwrapped hplain => ?_, fun hassign declared => ?_⟩
  · rw [hcall] at hwrapped hplain
    have hsame := Schema.visit_wrap config context hflat hnull layers true (.parse rules) hwrapped hplain
    have hfaithful := hreach.faithful.afterRules config rules
    show session.validateValue _ value rules _ context = session.validateValue _ value rules _ context
    unfold Schema.visit at hsame
    simp only [validateValue, run, hfaithful.walk_eq, hfaithful.schema_eq, hreach.faithful.tokenize_eq, hsame]
    rfl
  · rw [hcall]
    exact Schema.visit_ne_tooDeep config context hassign ⟨true, declared, value, .parse rules⟩

/-- A negative number is refused, whatever stands between it and the layer that says `unsigned`. -/
theorem validateValue_wrapped_age :
    Annotation.IsFlat (.bare (.builtIn .int)) ∧ (Value.ofInt (-1)).isNull = false ∧
      Reachable .empty (.start .empty) ∧
      ((start .empty).validateValue .standard (.ofInt (-1)) ""
        (.wrap [.marked (.other "years"), .marked .unsigned, .optional, .named "Age", .optional]
          (.bare (.builtIn .int))) .null).1.stop =
        some (.failed ⟨.negative, []⟩) := by
  have hassign : Schema.empty.AssignsNothing := nofun
  obtain ⟨hsame, hends⟩ := @validateValue_wrapped .empty (start .empty) .standard .start
    (.bare (.builtIn .int)) trivial (.ofInt (-1)) rfl
    [.marked (.other "years"), .marked .unsigned, .optional, .named "Age", .optional] "" .null
  refine ⟨trivial, rfl, .start, ?_⟩
  have hcall := congrArg (fun call => call.1.stop) (hsame (hends hassign _) (hends hassign _))
  exact hcall.trans (by decide +kernel)

end Session

end RuleCheck
