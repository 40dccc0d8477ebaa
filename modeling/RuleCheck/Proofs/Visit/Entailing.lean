import RuleCheck.Proofs.Visit.Lengths

/-! # Rules that ask for less

Rules entail other rules if they ask for all that those ask for, and direct a visit in the same way: to the
same default, the same folding of texts and the same fields of a record.  The order of the fields may be
left open.  What passes under the rules then passes under the other ones.
-/

namespace RuleCheck

/-- Two lists of the same members, in the same order too where the order counts. -/
def Rearranged {α : Type} (ordered : Prop) (first second : List α) : Prop :=
  first.Perm second ∧ (ordered → first = second)

namespace Rearranged

variable {α : Type} {ordered : Prop} {first second third : List α}

theorem refl (list : List α) : Rearranged ordered list list :=
  ⟨.refl list, fun _ => rfl⟩

theorem trans (h : Rearranged ordered first second) (h' : Rearranged ordered second third) :
    Rearranged ordered first third :=
  ⟨h.1.trans h'.1, fun hordered => (h.2 hordered).trans (h'.2 hordered)⟩

theorem append {last last' : List α} (h : Rearranged ordered first second)
    (h' : Rearranged ordered last last') : Rearranged ordered (first ++ last) (second ++ last') :=
  ⟨h.1.append h'.1, fun hordered => by rw [h.2 hordered, h'.2 hordered]⟩

end Rearranged

namespace RuleSet

def foldingTokens : List String :=
  [keepBlanksToken, capitalsToken, smallsToken]

/-- Whether rules ask for all that other rules ask for and direct a visit in the same way. -/
structure Entails (ordered : Prop) (rules milder : RuleSet) : Prop where
  demands : ∀ token ∈ milder.tokens, token ∈ rules.tokens
  default : milder.default? = rules.default?
  folding : ∀ token ∈ foldingTokens, milder.has token = rules.has token
  targets : Rearranged ordered rules.targets milder.targets

/-! ## What is left of the rules on the way down -/

theorem has_keep {test : String → Bool} {token : String} (h : test token = true) (rules : RuleSet) :
    (rules.keep test).has token = rules.has token := by
  simp [has, keep, List.contains_eq_mem, List.mem_filter, h]

theorem targets_keep {test : String → Bool}
    (h : ∀ token name, Text.argument? redirectFront token = some name → test token = true)
    (rules : RuleSet) : (rules.keep test).targets = rules.targets := by
  unfold targets keep
  rw [filterMap_filter_of_keeps h]

variable {ordered : Prop} {rules milder : RuleSet}

/-- A test that looks neither at the default nor at the folding keeps what the rules entail. -/
theorem Entails.keep (h : rules.Entails ordered milder) {test : String → Bool}
    (hdefault : ∀ token literal, Text.after? defaultFront token = some literal → test token = true)
    (hfolding : ∀ token ∈ foldingTokens, test token = true)
    (htargets : Rearranged ordered (rules.keep test).targets (milder.keep test).targets) :
    (rules.keep test).Entails ordered (milder.keep test) where
  demands token htoken := by
    obtain ⟨hmem, htest⟩ := List.mem_filter.1 htoken
    exact List.mem_filter.2 ⟨h.demands token hmem, htest⟩
  default := by rw [default?_keep hdefault, default?_keep hdefault, h.default]
  folding token htoken := by
    rw [has_keep (hfolding token htoken), has_keep (hfolding token htoken), h.folding token htoken]
  targets := htargets

/-- The keys of lengths that a sequence or mapping takes out of its rules. -/
def lengthKeys : List String :=
  [Visit.sequenceKey, Visit.mappingKey]

theorem Entails.withoutKey (h : rules.Entails ordered milder) {key : String}
    (hkey : key ∈ lengthKeys) :
    (rules.withoutKey key).Entails ordered (milder.withoutKey key) := by
  have hdefault : Text.Disjoint defaultFront key :=
    (by decide : ∀ key ∈ lengthKeys, Text.Disjoint defaultFront key) key hkey
  have hredirect : Text.Disjoint redirectFront key :=
    (by decide : ∀ key ∈ lengthKeys, Text.Disjoint redirectFront key) key hkey
  have hfolding : ∀ token ∈ foldingTokens, (!Comparison.isOf key token) = true :=
    (by decide : ∀ key ∈ lengthKeys, ∀ token ∈ foldingTokens,
      (!Comparison.isOf key token) = true) key hkey
  have htargets (rules : RuleSet) : (rules.withoutKey key).targets = rules.targets := by
    refine targets_keep (fun token name hname => ?_) rules
    simp [isOf_eq_false_of_disjoint (Text.after?_of_argument? hname) hredirect]
  refine h.keep ?_ hfolding ?_
  · intro token literal hliteral
    simp [isOf_eq_false_of_disjoint hliteral hdefault]
  · exact (htargets rules).symm ▸ (htargets milder).symm ▸ h.targets

/-- Rules that are passed on to a field redirect to no field. -/
theorem targets_forwarded (rules : RuleSet) : (RecordStep.forwarded rules).targets = [] := by
  unfold targets RecordStep.forwarded withoutFront
  simp only [List.map_eq_nil_iff, List.filterMap_eq_nil_iff, List.mem_filter, Text.startsWith,
    Bool.not_eq_true', Option.isSome_eq_false_iff, Option.isNone_iff_eq_none]
  rintro token ⟨-, hfront⟩
  simp [Text.argument?, hfront]

theorem Entails.forwarded (h : rules.Entails ordered milder) :
    (RecordStep.forwarded rules).Entails ordered (RecordStep.forwarded milder) := by
  have hredirect : Text.Disjoint defaultFront redirectFront := by decide
  refine h.keep ?_ (by decide) ?_
  · intro token literal hliteral
    simp [Text.startsWith, Text.after?_eq_none_of_disjoint hliteral hredirect]
  · have htargets := targets_forwarded rules
    have htargets' := targets_forwarded milder
    exact htargets.symm ▸ htargets'.symm ▸ .refl []

/-! ## What passes under the rules -/

theorem Entails.required (h : rules.Entails ordered milder) (hrequired : rules.required = false) :
    milder.required = false := by
  simp only [RuleSet.required, has, List.contains_eq_mem, decide_eq_false_iff_not] at hrequired ⊢
  exact fun hmem => hrequired (h.demands _ hmem)

theorem Entails.checkLength (h : rules.Entails ordered milder) {value : Value} {key : String}
    {remaining : RuleSet} (hpass : rules.checkLength value key = .ok remaining) :
    milder.checkLength value key = .ok (milder.withoutKey key) := by
  have htokens := (checkLengthTokens_passes_iff rules).1 ⟨remaining, hpass⟩
  obtain ⟨left, hleft⟩ := (checkLengthTokens_passes_iff milder).2
    fun token htoken => htokens token (h.demands token htoken)
  rw [← (checkLength_eq_ok hleft).2]
  exact hleft

theorem hasComparison_of_split {key : String} {tokens : List String}
    (h : ∀ token ∈ tokens, Comparison.split token key = .ok none) :
    hasComparison key tokens = .ok false := by
  induction tokens with
  | nil => rfl
  | cons token tokens ih =>
      obtain ⟨hfirst, hrest⟩ := List.forall_mem_cons.1 h
      simp [hasComparison, Comparison.splitOrStop, hfirst, ih hrest, bind, Except.bind]

theorem Entails.missingStop (h : rules.Entails ordered milder) {key : String}
    (hpass : rules.missingStop key = none) : milder.missingStop key = none := by
  obtain ⟨hrequired, htokens⟩ := missingStop_eq_none hpass
  have hmilder := hasComparison_of_split fun token htoken => htokens token (h.demands token htoken)
  simp [RuleSet.missingStop, h.required hrequired, hmilder]

end RuleSet

namespace ScalarKind

open RuleSet (foldingTokens Entails)

variable {ordered : Prop} {rules milder : RuleSet}

/-- What becomes of a scalar before it is checked depends on the default and the folding alone. -/
theorem settle_congr (hdefault : milder.default? = rules.default?)
    (hfolding : ∀ token ∈ foldingTokens, milder.has token = rules.has token) (kind : ScalarKind)
    (held : Value) : kind.settle milder held = kind.settle rules held := by
  have hblanks := hfolding RuleSet.keepBlanksToken (by decide)
  have hcapitals := hfolding RuleSet.capitalsToken (by decide)
  have hsmalls := hfolding RuleSet.smallsToken (by decide)
  have hoperation : milder.foldOperation? = rules.foldOperation? := by
    simp only [RuleSet.foldOperation?, hblanks, hcapitals, hsmalls]
  have htext : milder.foldText = rules.foldText := by
    funext s
    simp only [RuleSet.foldText, hblanks, hcapitals, hsmalls]
  have hfolded : kind.folded? milder = kind.folded? rules := by
    funext value
    simp only [folded?, hoperation, htext]
  have hliteral : kind.default? milder = kind.default? rules := by
    funext value
    simp only [ScalarKind.default?, hdefault]
  simp only [settle, hfolded, hliteral]

theorem settle_of_entails (h : rules.Entails ordered milder) (kind : ScalarKind) (held : Value) :
    kind.settle milder held = kind.settle rules held :=
  settle_congr h.default h.folding kind held

theorem checkStop_of_entails (h : rules.Entails ordered milder) {kind : ScalarKind} {value : Value}
    (hpass : kind.checkStop rules value = none) : kind.checkStop milder value = none := by
  obtain ⟨hrequired, hsign, htokens⟩ := checkStop_eq_none hpass
  have hmilder : kind.requiredStop milder value = none := by
    cases hasked : milder.required with
    | false => simp [requiredStop, hasked]
    | true =>
        have hstrict : rules.required = true := by
          cases hrules : rules.required with
          | true => rfl
          | false => rw [h.required hrules] at hasked; cases hasked
        simpa [requiredStop, hasked, hstrict] using hrequired
  have hfound : milder.tokens.findSome? (kind.tokenStop value) = none :=
    List.findSome?_eq_none_iff.2 fun token htoken => htokens token (h.demands token htoken)
  simp [checkStop, hmilder, hsign, hfound]

end ScalarKind

end RuleCheck
