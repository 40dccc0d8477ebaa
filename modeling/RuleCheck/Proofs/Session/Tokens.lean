import RuleCheck.Hook.Actions
import RuleCheck.Proofs.Session.Reachable
import RuleCheck.Proofs.Walk.Entailing

/-! # The tokens of a rule text

Two things are said of the tokens that a value is validated against: whether it passes, and what becomes of
it, does not depend on their order beside that of literals for a zero value; and tokens that only say what
passes change nothing about a value that passes in spite of them.
-/

namespace RuleCheck

namespace RuleSet

/-- Tokens in another order, with the same first literal for a zero value, ask for the same. -/
theorem entails_of_perm {rules other : RuleSet} (htokens : rules.tokens.Perm other.tokens)
    (hdefault : rules.default? = other.default?) : rules.Entails False other where
  demands _ htoken := htokens.mem_iff.2 htoken
  default := hdefault.symm
  folding token _ := by simp [has, List.contains_eq_mem, htokens.mem_iff]
  targets := ⟨(htokens.filterMap _).map _, False.elim⟩

/-- The fronts of the tokens that say which values pass, `required` aside. -/
def constraintFronts : List String :=
  ["val", "len", Visit.sequenceKey, Visit.mappingKey, ScalarKind.patternFront,
    ScalarKind.choiceFront]

/-- Whether a token says which values pass and nothing else. -/
def IsConstraint (token : String) : Prop :=
  token = requiredToken ∨ ∃ front ∈ constraintFronts, Text.startsWith token front = true

/-- Tokens, and the same tokens with constraints inserted among them. -/
inductive Constrained : List String → List String → Prop
  | nil : Constrained [] []
  | keep {tokens more : List String} (token : String) (h : Constrained tokens more) :
      Constrained (token :: tokens) (token :: more)
  | insert {tokens more : List String} {token : String} (htoken : IsConstraint token)
      (h : Constrained tokens more) : Constrained tokens (token :: more)

def directingFronts : List String :=
  [defaultFront, redirectFront]

/-- A constraint neither gives a literal for a zero value nor redirects rules. -/
theorem IsConstraint.after?_eq_none {token front : String} (h : IsConstraint token)
    (hfront : front ∈ directingFronts) : Text.after? front token = none := by
  rcases h with rfl | ⟨own, hown, hstarts⟩
  · exact (by decide : ∀ front ∈ directingFronts, Text.after? front requiredToken = none) front hfront
  · obtain ⟨rest, hrest⟩ := Option.isSome_iff_exists.1 hstarts
    have hdisjoint : Text.Disjoint own front :=
      (by decide : ∀ own ∈ constraintFronts, ∀ front ∈ directingFronts, Text.Disjoint own front)
        own hown front hfront
    exact Text.after?_eq_none_of_disjoint hrest hdisjoint

theorem IsConstraint.ne_folding {token other : String} (h : IsConstraint token)
    (hother : other ∈ foldingTokens) : token ≠ other := by
  rcases h with rfl | ⟨own, hown, hstarts⟩
  · exact (by decide : ∀ other ∈ foldingTokens, requiredToken ≠ other) other hother
  · rintro rfl
    have hnot : Text.startsWith token own = false :=
      (by decide : ∀ other ∈ foldingTokens, ∀ own ∈ constraintFronts,
        Text.startsWith other own = false) token hother own hown
    rw [hnot] at hstarts
    cases hstarts

/-- What constraints are inserted among is what is found if only other tokens are looked for. -/
theorem Constrained.filterMap_eq {α : Type} {tokens more : List String}
    (h : Constrained tokens more) (find : String → Option α)
    (hfind : ∀ token, IsConstraint token → find token = none) :
    more.filterMap find = tokens.filterMap find := by
  induction h with
  | nil => rfl
  | keep token _ ih => simp only [List.filterMap_cons, ih]
  | insert htoken _ ih => rw [List.filterMap_cons_none (hfind _ htoken), ih]

theorem Constrained.mem {tokens more : List String} (h : Constrained tokens more) {token : String}
    (htoken : token ∈ tokens) : token ∈ more := by
  induction h with
  | nil => exact htoken
  | keep _ _ ih =>
      rcases List.mem_cons.1 htoken with rfl | hrest
      · exact List.mem_cons_self
      · exact List.mem_cons_of_mem _ (ih hrest)
  | insert _ _ ih => exact List.mem_cons_of_mem _ (ih htoken)

theorem Constrained.mem_iff_of_folding {tokens more : List String} (h : Constrained tokens more)
    {token : String} (hfolding : token ∈ foldingTokens) : token ∈ tokens ↔ token ∈ more := by
  refine ⟨h.mem, fun htoken => ?_⟩
  induction h with
  | nil => exact htoken
  | keep _ _ ih =>
      rcases List.mem_cons.1 htoken with rfl | hrest
      · exact List.mem_cons_self
      · exact List.mem_cons_of_mem _ (ih hrest)
  | insert hinserted _ ih =>
      rcases List.mem_cons.1 htoken with rfl | hrest
      · exact absurd rfl (hinserted.ne_folding hfolding)
      · exact ih hrest

/-- Rules with more constraints ask for all that the rules ask for, and direct a visit like them. -/
theorem entails_of_constrained {rules constrained : RuleSet}
    (h : Constrained rules.tokens constrained.tokens) : constrained.Entails True rules where
  demands _ htoken := h.mem htoken
  default := by
    have hfound := h.filterMap_eq (Text.after? defaultFront) fun token htoken =>
      htoken.after?_eq_none (by decide)
    unfold default?
    rw [← List.head?_filterMap, ← List.head?_filterMap, hfound]
  folding token htoken := by simp [has, List.contains_eq_mem, h.mem_iff_of_folding htoken]
  targets := by
    have hfound := h.filterMap_eq (Text.argument? redirectFront) fun token htoken => by
      simp [Text.argument?, htoken.after?_eq_none (by decide : redirectFront ∈ directingFronts)]
    unfold targets
    rw [hfound]
    exact .refl _

end RuleSet

namespace Session

variable {schema : Schema} {session : Session}

/-! ## The calls of hooks -/

theorem trace_afterRules (session : Session) (config : Config) (text : String) :
    (session.afterRules config text).trace = session.trace := by
  unfold afterRules
  split
  · simp only
    split <;> rfl
  · rfl

theorem trace_afterFields (session : Session) (typeName : String) (tagKey : Option String) :
    (session.afterFields typeName tagKey).trace = session.trace := by
  simp only [afterFields]
  split
  · rfl
  · split <;> rfl

theorem trace_after (config : Config) (session : Session) (event : Event) :
    (session.after config event).trace = session.trace ++ event.call?.toList := by
  cases event with
  | rulesRead text => simpa [after, Event.call?] using trace_afterRules session config text
  | fieldsRead typeName tagKey =>
      simpa [after, Event.call?] using trace_afterFields session typeName tagKey
  | skipped category className => simp [after, Event.call?]
  | wrote => simp [after, Event.call?]
  | called typeName context => rfl

theorem trace_afterAll (config : Config) (events : List Event) (session : Session) :
    (events.foldl (after config) session).trace =
      session.trace ++ events.filterMap Event.call? := by
  induction events generalizing session with
  | nil => simp
  | cons event events ih =>
      rw [List.foldl_cons, ih, trace_after]
      cases hcall : event.call? <;> simp [hcall]

theorem trace_afterCall (session : Session) (config : Config) (stop : Option Stop) :
    (session.afterCall config stop).trace = session.trace := by
  unfold afterCall
  split
  · split <;> rfl
  · rfl

theorem Reachable.trace_validateValue (h : Reachable schema session) (validator : Validator)
    (value : Value) (rules : String) (declared : Annotation) (context : Value) :
    (session.validateValue validator value rules declared context).2.trace = session.trace ++
      (schema.visit validator context true declared value (.parse rules)).calls := by
  have hfaithful := h.faithful.afterRules validator.config rules
  have hschema := hfaithful.schema_eq
  simp only [validateValue, run, trace_afterCall, trace_afterAll, trace_afterRules,
    hfaithful.walk_eq, h.faithful.tokenize_eq]
  rw [hschema]
  rfl

/-! ## The order of tokens -/

/--
Whether a value passes, what becomes of it and what its object holds afterwards does not depend on the order
of the tokens, as long as the same literal for a zero value comes first.  The value is a tree here as anywhere:
in an object that is reached in two ways, what one token writes could be read by another.  The same hooks are called, in some
order.
-/
theorem validateValue_reordered (hreach : Reachable schema session) (validator : Validator)
    (value : Value) (declared : Annotation) (context : Value) {rules reordered : String}
    (htokens : (RuleSet.parse rules).tokens.Perm (RuleSet.parse reordered).tokens)
    (hdefault : (RuleSet.parse rules).default? = (RuleSet.parse reordered).default?) :
    let first := session.validateValue validator value rules declared context
    let second := session.validateValue validator value reordered declared context
    (first.1.stop = none ↔ second.1.stop = none) ∧
      (first.1.stop = none → second.1.value = first.1.value ∧ second.1.state = first.1.state ∧
        ∃ calls others, first.2.trace = session.trace ++ calls ∧
          second.2.trace = session.trace ++ others ∧ calls.Perm others) := by
  have hforth := Walk.tolerant_visit (schema.walk validator context) False
    (Walk.budget schema validator.config.tagKey declared value) true declared value _ _
    (RuleSet.entails_of_perm htokens hdefault)
  have hback := Walk.tolerant_visit (schema.walk validator context) False
    (Walk.budget schema validator.config.tagKey declared value) true declared value _ _
    (RuleSet.entails_of_perm htokens.symm hdefault.symm)
  intro first second
  have hfirst := hreach.validateValue_eq validator value rules declared context
  have hsecond := hreach.validateValue_eq validator value reordered declared context
  have htrace := hreach.trace_validateValue validator value rules declared context
  have htrace' := hreach.trace_validateValue validator value reordered declared context
  simp only [first, second, hfirst, hsecond]
  refine ⟨⟨fun hpass => (hforth hpass).stop, fun hpass => (hback hpass).stop⟩, fun hpass => ?_⟩
  obtain ⟨-, hvalue, -, hcalls⟩ := hforth hpass
  exact ⟨hvalue, congrArg value.graft hvalue, _, _, htrace, htrace', hcalls.1⟩

def label : RecordHead :=
  ⟨"Label", .data, false⟩

def labels : Schema :=
  ⟨[("Label", .record label)],
    [⟨label, [⟨"front", .bare (.builtIn .text), []⟩, ⟨"back", .bare (.builtIn .text), []⟩],
      some (.ofActions []), none⟩]⟩

/-- Redirected to the back first, the rules make the same of a label. -/
theorem validateValue_reordered_label :
    (RuleSet.parse "on front,toupper,on back,default=X").tokens.Perm
        (RuleSet.parse "on back,default=X,on front,toupper").tokens ∧
      ((start labels).validateValue .standard
          (.record label [("front", .ofText "a"), ("back", .null)])
          "on back,default=X,on front,toupper" .absent .null).1.value =
        ((start labels).validateValue .standard
          (.record label [("front", .ofText "a"), ("back", .null)])
          "on front,toupper,on back,default=X" .absent .null).1.value := by
  have htokens : (RuleSet.parse "on front,toupper,on back,default=X").tokens.Perm
      (RuleSet.parse "on back,default=X,on front,toupper").tokens := by
    decide +kernel
  refine ⟨htokens, ?_⟩
  refine ((validateValue_reordered (@Reachable.start labels) .standard
    (.record label [("front", .ofText "a"), ("back", .null)]) .absent .null htokens ?_).2 ?_).1
  · decide +kernel
  · decide +kernel

/-! ## More constraints -/

/--
A value that passes although constraints were inserted among the tokens passes without them.  The same
becomes of it, its object holds the same afterwards, and the same hooks are called in the same order.
-/
theorem validateValue_constrained (hreach : Reachable schema session) (validator : Validator)
    (value : Value) (declared : Annotation) (context : Value) {rules constrained : String}
    (hrules : RuleSet.Constrained (RuleSet.parse rules).tokens (RuleSet.parse constrained).tokens)
    (hpass : (session.validateValue validator value constrained declared context).1.stop = none) :
    let plain := session.validateValue validator value rules declared context
    let more := session.validateValue validator value constrained declared context
    plain.1.stop = none ∧ plain.1.value = more.1.value ∧ plain.1.state = more.1.state ∧
      ∃ calls, plain.2.trace = session.trace ++ calls ∧ more.2.trace = session.trace ++ calls := by
  have htolerant := Walk.tolerant_visit (schema.walk validator context) True
    (Walk.budget schema validator.config.tagKey declared value) true declared value _ _
    (RuleSet.entails_of_constrained hrules)
  intro plain more
  have hplain := hreach.validateValue_eq validator value rules declared context
  have hmore := hreach.validateValue_eq validator value constrained declared context
  have htrace := hreach.trace_validateValue validator value rules declared context
  have htrace' := hreach.trace_validateValue validator value constrained declared context
  rw [hmore] at hpass
  obtain ⟨hstop, hvalue, -, hcalls⟩ := htolerant hpass
  simp only [plain, more, hplain, hmore]
  refine ⟨hstop, hvalue, congrArg value.graft hvalue, _, htrace, ?_⟩
  rw [htrace']
  exact congrArg _ (hcalls.2 trivial)

/-- A label that passes with more constraints on its front passes without them. -/
theorem validateValue_constrained_label :
    RuleSet.Constrained (RuleSet.parse "on front,toupper").tokens
        (RuleSet.parse "required,on front,len<=3,toupper,oneof A|B").tokens ∧
      ((start labels).validateValue .standard
          (.record label [("front", .ofText " a "), ("back", .null)])
          "required,on front,len<=3,toupper,oneof A|B" .absent .null).1.stop = none ∧
      ((start labels).validateValue .standard
          (.record label [("front", .ofText " a "), ("back", .null)])
          "on front,toupper" .absent .null).1.stop = none := by
  have hrules : RuleSet.Constrained (RuleSet.parse "on front,toupper").tokens
      (RuleSet.parse "required,on front,len<=3,toupper,oneof A|B").tokens := by
    have hplain : (RuleSet.parse "on front,toupper").tokens = ["on front", "toupper"] := by
      decide +kernel
    have hmore : (RuleSet.parse "required,on front,len<=3,toupper,oneof A|B").tokens =
        ["required", "on front", "len<=3", "toupper", "oneof A|B"] := by
      decide +kernel
    rw [hplain, hmore]
    refine .insert (.inl rfl) (.keep _ (.insert (.inr ⟨"len", ?_, ?_⟩) (.keep _
      (.insert (.inr ⟨ScalarKind.choiceFront, ?_, ?_⟩) .nil))))
    all_goals decide
  have hpass : ((start labels).validateValue .standard
      (.record label [("front", .ofText " a "), ("back", .null)])
      "required,on front,len<=3,toupper,oneof A|B" .absent .null).1.stop = none := by
    decide +kernel
  exact ⟨hrules, hpass, (validateValue_constrained (@Reachable.start labels) .standard
    (.record label [("front", .ofText " a "), ("back", .null)]) .absent .null hrules hpass).1⟩

end Session

end RuleCheck
