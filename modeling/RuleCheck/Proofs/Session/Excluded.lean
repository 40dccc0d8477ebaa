import RuleCheck.Proofs.Session.Registries
import RuleCheck.Proofs.Session.Termination
import RuleCheck.Proofs.Walk.Blind

/-! # Calls with excluded fields

A field that its own rules exclude is neither read nor written by a call without hooks, unless the rules that reach
its record name it, ask the record for anything other than zero, or go through it as a list.  For two values that
differ in such fields only, calls end alike.  The keys of mappings are no fields in this sense: they are not visited,
but a path shows them with all that is in them.  Nor is the order of a set free, since a path also shows where a
member comes.
-/

namespace RuleCheck

theorem Registry.Selection.grounded {registry : Registry} (h : registry.Selection) : registry.Grounded where
  optional _ hserved := .inl (h.category_eq hserved).symm
  sequence hserved := by cases h.category_eq hserved

namespace Schema

/-- Whether a call has no part in what is hidden of its value. -/
structure Withholds (schema : Schema) (validator : Validator) (context : Value) (declared : Annotation)
    (rules : String) (hidden : Hidden) (value : Value) : Prop where
  shown : ¬hidden []
  /-- What is hidden are excluded fields. -/
  excluded : (schema.walk validator context).HidesExcluded hidden value
  /-- The rules that arrive at their records have no part in them, with any number of levels. -/
  discreet : ∀ levels,
    (schema.walk validator context).Discreet levels ⟨true, declared, value, .parse rules⟩ hidden

variable {schema : Schema} {validator : Validator} {context : Value} {declared : Annotation} {rules : String}
  {hidden : Hidden} {value other : Value}

theorem visit_blind (hhooks : schema.hasHooks = false) (hdistinct : schema.DistinctNames)
    (hselection : validator.registry.Selection) (hsame : value.SameOutside hidden other)
    (h : schema.Withholds validator context declared rules hidden value) :
    (schema.visit validator context true declared value (.parse rules)).Blind hidden value other
      (schema.visit validator context true declared other (.parse rules)) := by
  have hmatched : (schema.walk validator context).Matched := fun _ _ => hselection.category_eq
  have hhookless : (schema.walk validator context).Hookless := fun _ _ => hookless_of_hasHooks hhooks
  have hends (value : Value) := visit_ends (assignsNothing_of_hasHooks hhooks) hselection.grounded context
    ⟨true, declared, value, .parse rules⟩
  have hfirst := hends value
  have hsecond := hends other
  unfold visit at hfirst hsecond ⊢
  -- each call has levels enough of its own, so that both can be given the greater number of them
  generalize Walk.budget schema validator.config.tagKey declared value = levels at hfirst ⊢
  generalize Walk.budget schema validator.config.tagKey declared other = levels' at hsecond ⊢
  rw [Walk.visit_eq_of_levels _ (Nat.le_max_left levels levels') hfirst,
    Walk.visit_eq_of_levels _ (Nat.le_max_right levels levels') hsecond]
  exact Walk.blind_visitAt hmatched (walk_distinctFields validator.config context hdistinct) hhookless _
    ⟨true, declared, value, .parse rules⟩ h.shown hsame h.excluded (h.discreet _)

theorem congruent_visit (hhooks : schema.hasHooks = false) (hdistinct : schema.DistinctNames)
    (hselection : validator.registry.Selection) (context : Value) (declared : Annotation) (rules : String)
    (value : Value) :
    Congruent value (schema.visit validator context true declared value (.parse rules)).value := by
  have hmatched : (schema.walk validator context).Matched := fun _ _ => hselection.category_eq
  have hassign := assignsNothing_of_hasHooks hhooks
  exact (Walk.shaped_visitAt hmatched (walk_distinctFields validator.config context hdistinct)
    (walk_assignsNothing validator.config context hassign) _ ⟨true, declared, value, .parse rules⟩).congruent

end Schema

namespace Session

variable {schema : Schema} {session session' : Session}

/--
Without hooks, excluded fields that a call has no part in are neither read nor written.  For two values that differ
in such fields only, members of sets being walked in the same order, calls are both passed or are both stopped by the same error, and both what they return and what
they leave in the old objects are the same outside of these fields.  The fields themselves keep what they held, each
in a record of the same type with the same names, whether this record was rebuilt or not.
-/
theorem validateValue_sameOutside (hreach : Reachable schema session) (hreach' : Reachable schema session')
    (hhooks : schema.hasHooks = false) (hdistinct : schema.DistinctNames) {validator : Validator}
    (hselection : validator.registry.Selection) {value other : Value} {hidden : Hidden}
    (hsame : value.SameOutside hidden other) {rules : String} {declared : Annotation} {context : Value}
    (hwithholds : schema.Withholds validator context declared rules hidden value) :
    let first := (session.validateValue validator value rules declared context).1
    let second := (session'.validateValue validator other rules declared context).1
    second.stop = first.stop ∧
      first.value.SameOutside hidden second.value ∧ first.state.SameOutside hidden second.state ∧
      (value.Keeps hidden first.value ∧ value.Keeps hidden first.state) ∧
      other.Keeps hidden second.value ∧ other.Keeps hidden second.state := by
  intro first second
  have hblind := Schema.visit_blind hhooks hdistinct hselection hsame hwithholds
  have hfirst := Schema.congruent_visit hhooks hdistinct hselection context declared rules value
  have hsecond := Schema.congruent_visit hhooks hdistinct hselection context declared rules other
  simp only [first, second, hreach.validateValue_eq, hreach'.validateValue_eq]
  exact ⟨hblind.stop, hblind.same, hsame.graft hblind.same hfirst hsecond,
    ⟨hblind.keeps, hblind.keeps.graft hfirst⟩, hblind.keeps_other, hblind.keeps_other.graft hsecond⟩

/-- Accounts with a name and a secret that is excluded; neither can be changed in place. -/
def secretive : Schema :=
  ⟨[], [⟨⟨"Account", .data, true⟩, [⟨"name", .bare (.builtIn .text), []⟩,
    ⟨"secret", .annotated (.bare (.builtIn .text)) [.rules "-"], []⟩], none, none⟩]⟩

def secretAccount (secret : Value) : Value :=
  .record ⟨"Account", .data, true⟩ [("name", .ofText " ann "), ("secret", secret)]

def secretOnly : Hidden :=
  fun path => path = [1]

theorem secretive_withholds (secret : Value) :
    secretive.Withholds .standard .null .absent "on name,toupper" secretOnly (secretAccount secret) := by
  have hpath {path : List Nat} {index : Nat} (h : path ++ [index] = [1]) : path = [] ∧ index = 1 := by
    simpa using List.append_eq_singleton_iff.1 h
  refine ⟨by simp [secretOnly], fun path index hpart => ?_, fun levels path last harrives => ⟨?_, ?_, ?_⟩⟩
  · obtain ⟨rfl, rfl⟩ := hpath hpart
    exact ⟨⟨"Account", .data, true⟩, ["name", "secret"], "secret", rfl, rfl, _, rfl, by decide +kernel⟩
  · intro _ head names _
    obtain ⟨rest, hcomes⟩ := harrives.comesTo
    have hroot : (RuleSet.parse "on name,toupper").required = false := by decide +kernel
    refine hcomes.rules_of (P := fun rules => rules.required = false) ?_ ?_ hroot
    · intro rules fewer hfewer hrules
      simp only [RuleSet.required, RuleSet.has, List.contains_eq_mem, decide_eq_false_iff_not] at hrules ⊢
      exact fun hmem => hrules (hfewer hmem)
    · intro base view hview field hfield
      rcases Schema.fields_of_view hview with ⟨name, hfields⟩ | hfields <;> rw [hfields] at hfield
      · obtain ⟨decl, hdecl, -, hown⟩ := Schema.mem_fields hfield
        have hall : ∀ decl ∈ secretive.records, ∀ field ∈ decl.resolved secretive.class? "rules",
            (RuleSet.parse field.rules).required = false := by decide +kernel
        exact hall decl hdecl field hown
      · rw [List.mem_singleton.1 hfield]
        decide +kernel
  · intro _ name hname index hindex hpart
    obtain ⟨rfl, rfl⟩ := hpath hpart
    obtain ⟨hvalue, hrules⟩ := harrives.of_nil
    rw [hrules] at hname
    rw [hvalue] at hindex
    have htargets : (RuleSet.parse "on name,toupper").targets = ["name"] := by decide +kernel
    rw [htargets, List.mem_singleton] at hname
    rw [hname] at hindex
    have hname : (secretAccount secret).frame?.bind (Frame.fieldIndex? "name") = some 0 := rfl
    cases hname.symm.trans hindex
  · intro hcategory index hpart
    obtain ⟨rfl, rfl⟩ := hpath hpart
    have hlist : (last.value.resolve last.declared).category = .list := hcategory
    rw [harrives.of_nil.1] at hlist
    rcases Value.list_of_resolve rfl hlist with ⟨_, _, _, hkind⟩ | ⟨_, _, _, hkind⟩ | ⟨head, _, hkind, htuple⟩
    · cases hkind
    · cases hkind
    · cases hkind
      cases htuple

/-- An account is rebuilt with its name in capitals, whatever its secret is, and keeps it. -/
theorem validateValue_sameOutside_account :
    Reachable secretive (.start secretive) ∧ secretive.hasHooks = false ∧ secretive.DistinctNames ∧
      Registry.standard.Selection ∧
      (secretAccount (.ofText " b ")).SameOutside secretOnly (secretAccount (.ofInt 7)) ∧
      secretive.Withholds .standard .null .absent "on name,toupper" secretOnly (secretAccount (.ofText " b ")) ∧
      let call := fun secret =>
        ((start secretive).validateValue .standard (secretAccount secret) "on name,toupper" .absent .null).1
      (call (.ofInt 7)).stop = (call (.ofText " b ")).stop ∧
        ((call (.ofText " b ")).value.part? [0]).bind Value.scalar? = some (.text "ANN") ∧
        (call (.ofText " b ")).value.part? [1] = some (.ofText " b ") ∧
        (call (.ofInt 7)).value.part? [1] = some (.ofInt 7) := by
  have hdistinct : secretive.DistinctNames := by simp [Schema.DistinctNames, secretive]
  have hsame : (secretAccount (.ofText " b ")).SameOutside secretOnly (secretAccount (.ofInt 7)) := by
    refine .node rfl rfl rfl fun i own new hown hnew => ?_
    rcases i with _ | _ | i
    · cases hown
      cases hnew
      exact .refl _ _
    · exact .hidden (show (secretOnly.below [0 + 1]) [] from rfl) own new
    · cases hown
  have hwithholds := secretive_withholds (.ofText " b ")
  obtain ⟨hstop, -, -, ⟨hkeeps, -⟩, hkeeps', -⟩ := validateValue_sameOutside (@Reachable.start secretive)
    (@Reachable.start secretive) rfl hdistinct (show Registry.standard.Selection by decide) hsame hwithholds
  exact ⟨.start, rfl, hdistinct, by decide, hsame, hwithholds, hstop, by decide +kernel, (hkeeps [] 1 rfl).2,
    (hkeeps' [] 1 rfl).2⟩

/-- Named tuples with a number, which is two at least, and a secret that is excluded. -/
def ticket : RecordHead :=
  ⟨"Ticket", .namedTuple, true⟩

def ticketing : Schema :=
  ⟨[("Ticket", .record ticket)], [⟨ticket, [⟨"id", .annotated (.bare (.builtIn .int)) [.rules "val>=2"], []⟩,
    ⟨"secret", .annotated (.bare (.builtIn .text)) [.rules "-"], []⟩], none, none⟩]⟩

def ticketOf (id : Int) (secret : String) : Value :=
  .record ticket [("id", .ofInt id), ("secret", .ofText secret)]

/--
The path of an error shows the excluded field of a record that is a key, so that the errors differ for keys that
differ in this field only.  It shows as well where a member of a set comes: all fields of a member enter its hash, and
so the order of the set.
-/
theorem excluded_fields_show :
    let stopOf := fun value rules => ((start ticketing).validateValue .standard value rules .absent .null).1.stop
    let keyed := fun secret => Value.mapping .dict none [(ticketOf 2 secret, .ofText "")]
    (ticketing.walk .standard .null).Excludes ticket "secret" ∧
      stopOf (keyed "a") "len>=1" ≠ stopOf (keyed "b") "len>=1" ∧
      stopOf (.sequence .set none [ticketOf 1 "a", ticketOf 2 "a"]) "" ≠
        stopOf (.sequence .set none [ticketOf 2 "a", ticketOf 1 "b"]) "" := by
  have hexcluded : (ticketing.walk .standard .null).Excludes ticket "secret" :=
    ⟨_, rfl, _, .tail _ (.head _), rfl, by decide +kernel⟩
  exact ⟨hexcluded, by decide +kernel, by decide +kernel⟩

end Session

end RuleCheck
