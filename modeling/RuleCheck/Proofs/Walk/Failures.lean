import RuleCheck.Proofs.Walk.Positions
import RuleCheck.Proofs.Walk.Refusals

/-! # Where failures come from

What stops a visit is a stop of the place itself, or that of a visit that was called for, seen from one level
further up.  So a stop is a fault or the report of a failed validation, and the path of such a report leads from
the value that was handed in to the one that was refused.
-/

namespace RuleCheck

namespace Stop

/-- What stopped a walk, seen from further up by some segments. -/
def through (segments : List String) (stop : Stop) : Stop :=
  segments.foldr under stop

theorem Proper.through {stop : Stop} (h : stop.Proper) (segments : List String) :
    (stop.through segments).Proper := by
  induction segments with
  | nil => exact h
  | cons segment segments ih => exact ih.under segment

/-- A failure that is seen from further up has the segments in front of its path. -/
theorem eq_failed_of_through {segments : List String} {stop : Stop} {failure : Failure}
    (h : .failed failure = stop.through segments) :
    ∃ rest, stop = .failed ⟨failure.reason, rest⟩ ∧ failure.path = segments ++ rest := by
  induction segments generalizing failure with
  | nil => exact ⟨failure.path, h.symm, rfl⟩
  | cons segment segments ih =>
      have hunder : .failed failure = (stop.through segments).under segment := h
      cases hinner : stop.through segments with
      | fault cause =>
          rw [hinner] at hunder
          cases hunder
      | failed own =>
          rw [hinner] at hunder
          cases hunder
          obtain ⟨rest, hstop, hpath⟩ := ih hinner.symm
          exact ⟨rest, hstop, congrArg (segment :: ·) hpath⟩

end Stop

namespace Walk

/-- The stops that a place has of its own: no news from further down, and what hooks of a record raise. -/
inductive OwnStop (walk : Walk) (place : Place) : Stop → Prop
  | own {stop : Stop} (h : stop.Own) : OwnStop walk place stop
  | raised {view : RecordView} {hook : Hook} {record : Value} {stop : Stop}
      (hview : walk.view? place.value.classOf = some view) (hhook : hook ∈ view.hooks)
      (hraise : (hook.run walk.context record).2 = some stop) : OwnStop walk place stop

/-- What stops a visit is a stop of the place itself, or of a visit that it called for. -/
def Traced (walk : Walk) (levels : Nat) (place : Place) (stop : Stop) : Prop :=
  walk.OwnStop place stop ∨ ∃ segments next own, walk.CallsUnder levels place segments next ∧
    (walk.visitAt levels next).stop = some own ∧ stop = own.through segments

section

variable {walk : Walk} {levels : Nat} {place : Place} {stop : Stop}

theorem OwnStop.proper (h : walk.OwnStop place stop) : stop.Proper := by
  cases h with
  | own h => exact h.proper
  | @raised _ hook _ _ _ _ hraise => exact (hook.ofHook _ _ _ hraise).proper

theorem traced_of_own (h : stop.Own) : walk.Traced levels place stop :=
  .inl (.own h)

theorem traced_of_fault (fault : Fault) : walk.Traced levels place (.fault fault) :=
  traced_of_own (.fault fault)

/-- What stops a visit below, at a segment or at none, stops the visit to the place. -/
theorem traced_of_below {next : Place} {segments : List String} {own : Stop}
    (hbelow : walk.Below place segments next) (hown : (walk.visitAt levels next).stop = some own) :
    walk.Traced levels place (own.through segments) :=
  .inr ⟨segments, next, own, .below hbelow, hown, rfl⟩

theorem traced_of_optional (hcategory : place.resolved.category = .optional)
    (h : (Visit.optional (walk.visit levels) place.writable place.resolved place.value
      place.rules).stop = some stop) : walk.Traced levels place stop := by
  unfold Visit.optional at h
  split at h
  · simp only [Visit.missing] at h
    split at h
    · cases h
      exact traced_of_own RuleSet.own_missing
    · cases h
  · rename_i hnull
    exact traced_of_below (.present hcategory (by simpa using hnull)) h

theorem traced_of_reference (hcategory : place.resolved.category = .reference)
    (h : (Visit.reference (walk.visit levels) place.resolved place.value place.rules).stop =
      some stop) : walk.Traced levels place stop := by
  unfold Visit.reference at h
  split at h
  · split at h
    · cases h
      exact traced_of_own RuleSet.own_missing
    · cases h
  · rename_i content _ hvalue
    exact traced_of_below (.content hcategory hvalue) h
  · cases h
    exact traced_of_fault _

theorem traced_of_sequence (hcategory : place.resolved.category = .list)
    (h : (Visit.sequence (walk.visit levels) place.writable place.resolved place.value
      place.rules).stop = some stop) : walk.Traced levels place stop := by
  cases Visit.sequence_stopped h with
  | missing hmissing => exact traced_of_own (RuleSet.own_missingStop hmissing)
  | length _ hlength => exact traced_of_own (RuleSet.own_checkLengthTokens hlength)
  | oversized | notIterable => exact traced_of_fault _
  | item _ hremaining hitems hitem hstop =>
      rw [(RuleSet.checkLength_eq_ok hremaining).2] at hstop
      exact traced_of_below (.item hcategory hitems hitem) hstop

theorem traced_of_mapping (hcategory : place.resolved.category = .map)
    (h : (Visit.mapping (walk.visit levels) place.resolved place.value place.rules).stop =
      some stop) : walk.Traced levels place stop := by
  cases Visit.mapping_stopped h with
  | missing hmissing => exact traced_of_own (RuleSet.own_missingStop hmissing)
  | length _ hlength => exact traced_of_own (RuleSet.own_checkLengthTokens hlength)
  | noEntries => exact traced_of_fault _
  | entry hremaining hvalue hentry hstop =>
      rw [(RuleSet.checkLength_eq_ok hremaining).2] at hstop
      exact traced_of_below (.entry hcategory hvalue (List.mem_of_getElem? hentry)) hstop

theorem traced_of_hook {view : RecordView} (hview : walk.view? place.value.classOf = some view)
    {method : Option Hook} (hmethod : view.selfHook = method ∨ view.contextHook = method)
    {called : Option Value} {record : Value}
    (h : (Visit.hook view.typeName called walk.context method record).stop = some stop) :
    walk.Traced levels place stop := by
  cases method with
  | none => cases h
  | some hook => exact .inl (.raised hview (RecordView.mem_hooks.2 hmethod) h)

theorem traced_of_record (hcategory : place.resolved.category = .record)
    (h : (Visit.record (walk.visit levels) walk.tokenize walk.tagKey walk.context walk.view?
      place.writable place.value place.rules).stop = some stop) : walk.Traced levels place stop := by
  cases Visit.record_stopped h with
  | missing => exact traced_of_own RuleSet.own_missing
  | zeroFails | notRecord | missingField => exact traced_of_fault _
  | unknownField => exact traced_of_own (.refuse (by simp [Reason.kind]))
  | field _ hview hplan hbefore hcontent hstop =>
      exact .inr ⟨_, _, _, .field hcategory hview hplan hbefore hcontent, hstop, rfl⟩
  -- hooks look at the record as a whole: what they raise is told of the place itself
  | hook hview hmethod hhook => exact traced_of_hook hview hmethod hhook

theorem traced_of_visit (hregistry : walk.evaluator? = Registry.standard.get?)
    (h : (walk.visitAt (levels + 1) place).stop = some stop) : walk.Traced levels place stop := by
  simp only [visitAt, Walk.visit] at h
  split at h
  · cases h
  · rename_i evaluator hevaluator
    rw [hregistry] at hevaluator
    have hcategory := (Registry.category_of_standard hevaluator).symm
    cases evaluator with
    | optional => exact traced_of_optional hcategory h
    | reference => exact traced_of_reference hcategory h
    | scalar kind => exact traced_of_own (ScalarKind.own_visit h)
    | record => exact traced_of_record hcategory h
    | sequence => exact traced_of_sequence hcategory h
    | mapping => exact traced_of_mapping hcategory h

variable (place) in
theorem proper_visit (hregistry : walk.evaluator? = Registry.standard.get?)
    (h : (walk.visitAt levels place).stop = some stop) : stop.Proper := by
  induction levels generalizing place stop with
  | zero =>
      cases h
      exact trivial
  | succ levels ih =>
      obtain hown | ⟨segments, next, own, -, hnext, rfl⟩ := traced_of_visit hregistry h
      · exact hown.proper
      · exact (ih next hnext).through segments

end

/-! ## Failures and their paths -/

/-- Whether no hook that a walk can run raises a report that has a path already. -/
def RaisesNoPaths (walk : Walk) : Prop :=
  ∀ base view, walk.view? base = some view → ∀ hook ∈ view.hooks, hook.RaisesNoPaths

variable {walk : Walk}

theorem OwnStop.path_eq_nil (hraises : walk.RaisesNoPaths) {place : Place} {failure : Failure}
    (h : walk.OwnStop place (.failed failure)) : failure.path = [] := by
  generalize hstop : Stop.failed failure = stop at h
  cases h with
  | own h =>
      rw [← hstop] at h
      exact h.path_eq_nil
  | raised hview hhook hraise =>
      rw [← hstop] at hraise
      exact hraises _ _ hview _ hhook _ _ _ hraise

/-- A failure of a visit has no path, or it is that of a visit that was called for, with segments in front. -/
theorem failed_of_visit (hregistry : walk.evaluator? = Registry.standard.get?)
    (hraises : walk.RaisesNoPaths) {levels : Nat} {place : Place} {failure : Failure}
    (h : (walk.visitAt (levels + 1) place).stop = some (.failed failure)) :
    failure.path = [] ∨ ∃ segments next rest, walk.CallsUnder levels place segments next ∧
      failure.path = segments ++ rest ∧
      (walk.visitAt levels next).stop = some (.failed ⟨failure.reason, rest⟩) := by
  obtain hown | ⟨segments, next, own, hcall, hnext, hthrough⟩ := traced_of_visit hregistry h
  · exact .inl (hown.path_eq_nil hraises)
  · obtain ⟨rest, rfl, hpath⟩ := Stop.eq_failed_of_through hthrough
    exact .inr ⟨segments, next, rest, hcall, hpath, hnext⟩

theorem isPath_of_failed (hregistry : walk.evaluator? = Registry.standard.get?)
    (hassign : walk.AssignsNothing) (hraises : walk.RaisesNoPaths) {levels : Nat} {place : Place}
    {failure : Failure} (h : (walk.visitAt levels place).stop = some (.failed failure)) :
    place.value.IsPath walk.view? failure.path := by
  induction levels generalizing place failure with
  | zero => cases h
  | succ levels ih =>
      obtain hown | ⟨segments, next, rest, hcall, hpath, hnext⟩ := failed_of_visit hregistry hraises h
      · rw [hown]
        exact Value.isPath_nil place.value
      · rw [hpath]
        exact hcall.isPath hregistry hassign (ih hnext)

/--
Where nothing is redirected or marked, the path of a failure is that of a position inside, and the visit to
that position alone fails for the same reason, without a path.
-/
theorem position_of_failed (hregistry : walk.evaluator? = Registry.standard.get?)
    (hrecords : ∀ base view, walk.view? base = some view → base.isRecord = true)
    (hdistinct : walk.DistinctFields) (hraises : walk.RaisesNoPaths) {levels : Nat} {place : Place}
    {failure : Failure} (htargets : place.rules.targets = []) (hown : walk.OwnRulesOnly place.value)
    (h : (walk.visitAt levels place).stop = some (.failed failure)) :
    ∃ last left, walk.Position place failure.path last ∧
      (walk.visitAt left last).stop = some (.failed ⟨failure.reason, []⟩) := by
  induction levels generalizing place failure with
  | zero => cases h
  | succ levels ih =>
      obtain hhere | ⟨segments, next, rest, hcall, hpath, hnext⟩ := failed_of_visit hregistry hraises h
      · refine ⟨place, levels + 1, ?_, ?_⟩
        · rw [hhere]
          exact .here place
        · rw [h, ← hhere]
      · -- the field was not visited before, so it is still as it was found
        have hbelow := hcall.below_of_ownRulesOnly hdistinct htargets hown
        obtain ⟨hrules, hinside⟩ := hbelow.ownRulesOnly hrecords htargets hown
        obtain ⟨last, left, hposition, hlast⟩ := ih hrules hinside hnext
        refine ⟨last, left, ?_, hlast⟩
        rw [hpath]
        exact .inside hbelow hposition

end Walk

end RuleCheck
