import RuleCheck.Proofs.Visit.Entailing

/-! # Tokens that say nothing

A token that is none of the known words and starts with none of the known fronts is looked at by no part of a
visit.  Rules that differ in such tokens alone settle scalars alike, check them alike, and are passed on alike.
-/

namespace RuleCheck

namespace RuleSet

def knownWords : List String :=
  requiredToken :: foldingTokens

/-- The fronts of the tokens that say something about every value. -/
def knownFronts : List String :=
  [defaultFront, redirectFront, ScalarKind.patternFront, ScalarKind.choiceFront, "val", "len",
    Visit.sequenceKey, Visit.mappingKey]

def isKnown (token : String) : Bool :=
  knownWords.contains token || knownFronts.any fun front => Text.startsWith token front

/-- Whether a token says something about the field that it is written at. -/
def isKnownOfField (token : String) : Bool :=
  isKnown token || [excludeToken, mainToken].contains token

/-- Whether rules have the same tokens in the same order, those aside that say nothing. -/
def Alike (rules other : RuleSet) : Prop :=
  rules.keep isKnown = other.keep isKnown

/-- Whether the rules of fields have the same tokens in the same order, those aside that say nothing. -/
def AlikeOfField (rules other : RuleSet) : Prop :=
  rules.keep isKnownOfField = other.keep isKnownOfField

instance (rules other : RuleSet) : Decidable (rules.Alike other) :=
  inferInstanceAs (Decidable (_ = _))

instance (rules other : RuleSet) : Decidable (rules.AlikeOfField other) :=
  inferInstanceAs (Decidable (_ = _))

theorem isKnown_of_after? {token rest front : String} (hfront : front ∈ knownFronts)
    (h : Text.after? front token = some rest) : isKnown token = true := by
  have hstarts : Text.startsWith token front = true := by
    rw [Text.startsWith, h]
    rfl
  rw [isKnown, Bool.or_eq_true, List.any_eq_true]
  exact .inr ⟨front, hfront, hstarts⟩

theorem after?_eq_none {token front : String} (h : isKnown token = false) (hfront : front ∈ knownFronts) :
    Text.after? front token = none := by
  cases hafter : Text.after? front token with
  | none => rfl
  | some rest =>
      rw [isKnown_of_after? hfront hafter] at h
      cases h

theorem splitOrStop_of_not_isKnown {token key : String} (h : isKnown token = false)
    (hkey : key ∈ knownFronts) : Comparison.splitOrStop token key = .ok none := by
  rw [Comparison.splitOrStop, ScalarKind.split_eq_none (after?_eq_none h hkey)]

theorem keep_comm (rules : RuleSet) (test other : String → Bool) :
    (rules.keep test).keep other = (rules.keep other).keep test := by
  simp only [keep, List.filter_filter, Bool.and_comm]

variable {rules other : RuleSet}

namespace Alike

theorem refl (rules : RuleSet) : rules.Alike rules :=
  rfl

theorem has_eq (h : rules.Alike other) {token : String} (htoken : isKnown token = true) :
    rules.has token = other.has token := by
  rw [← has_keep htoken rules, h, has_keep htoken other]

theorem required_eq (h : rules.Alike other) : rules.required = other.required :=
  h.has_eq (by decide)

theorem default?_eq (h : rules.Alike other) : rules.default? = other.default? := by
  have hknown : ∀ token literal, Text.after? defaultFront token = some literal → isKnown token = true :=
    fun _ _ hliteral => isKnown_of_after? (by decide) hliteral
  rw [← default?_keep hknown rules, h, default?_keep hknown other]

theorem targets_eq (h : rules.Alike other) : rules.targets = other.targets := by
  have hknown : ∀ token name, Text.argument? redirectFront token = some name → isKnown token = true :=
    fun _ _ hname => isKnown_of_after? (by decide) (Text.after?_of_argument? hname)
  rw [← targets_keep hknown rules, h, targets_keep hknown other]

theorem keep (h : rules.Alike other) (test : String → Bool) : (rules.keep test).Alike (other.keep test) := by
  rw [Alike, keep_comm, h, keep_comm]

theorem forwarded (h : rules.Alike other) :
    (RecordStep.forwarded rules).Alike (RecordStep.forwarded other) :=
  h.keep _

end Alike

namespace AlikeOfField

theorem alike (h : rules.AlikeOfField other) : rules.Alike other := by
  have hboth (rules : RuleSet) : (rules.keep isKnownOfField).keep isKnown = rules.keep isKnown := by
    have hmore (token : String) : (isKnown token && isKnownOfField token) = isKnown token := by
      cases hknown : isKnown token <;> simp [isKnownOfField, hknown]
    simp only [RuleSet.keep, List.filter_filter, hmore]
  rw [Alike, ← hboth rules, h, hboth other]

theorem has_eq (h : rules.AlikeOfField other) {token : String} (htoken : token ∈ [excludeToken, mainToken]) :
    rules.has token = other.has token := by
  have hknown : isKnownOfField token = true := by
    rw [isKnownOfField, List.contains_iff_mem.2 htoken, Bool.or_true]
  rw [← has_keep hknown rules, h, has_keep hknown other]

end AlikeOfField

/-! ## Lengths -/

/-- A check of lengths passes over tokens that say nothing. -/
theorem checkLengthTokens_keep (value : Value) {key : String} (hkey : key ∈ knownFronts)
    (tokens : List String) (rules : RuleSet) :
    checkLengthTokens value key (tokens.filter isKnown) (rules.keep isKnown) =
      (checkLengthTokens value key tokens rules).map fun remaining => remaining.keep isKnown := by
  induction tokens generalizing rules with
  | nil => rfl
  | cons token tokens ih =>
      cases hknown : isKnown token with
      | false =>
          have hnone := splitOrStop_of_not_isKnown hknown hkey
          rw [List.filter_cons_of_neg (by simp [hknown]), ih]
          simp only [checkLengthTokens, hnone, bind, Except.bind]
      | true =>
          have hwithout : (rules.keep isKnown).without token = (rules.without token).keep isKnown :=
            rules.keep_comm isKnown fun other => other != token
          rw [List.filter_cons_of_pos hknown]
          simp only [checkLengthTokens, hwithout, ih, bind, Except.bind]
          cases Comparison.splitOrStop token key with
          | error stop => rfl
          | ok found =>
              cases found with
              | none => rfl
              | some c =>
                  simp only
                  split
                  · rfl
                  · cases c.lengthStop value.lengthOrFault <;> rfl

theorem Alike.checkLength (h : rules.Alike other) (value : Value) {key : String} (hkey : key ∈ knownFronts) :
    (∃ stop, rules.checkLength value key = .error stop ∧ other.checkLength value key = .error stop) ∨
      ∃ remaining left, rules.checkLength value key = .ok remaining ∧
        other.checkLength value key = .ok left ∧ remaining.Alike left := by
  have hsame : (rules.checkLength value key).map (fun remaining => remaining.keep isKnown) =
      (other.checkLength value key).map fun remaining => remaining.keep isKnown := by
    unfold RuleSet.checkLength
    rw [← checkLengthTokens_keep value hkey, ← checkLengthTokens_keep value hkey, h]
    exact congrArg (fun rules => checkLengthTokens value key (RuleSet.tokens rules) (other.keep isKnown)) h
  cases hfirst : rules.checkLength value key with
  | error stop =>
      cases hsecond : other.checkLength value key with
      | error stop' =>
          rw [hfirst, hsecond] at hsame
          cases hsame
          exact .inl ⟨stop, rfl, rfl⟩
      | ok left =>
          rw [hfirst, hsecond] at hsame
          cases hsame
  | ok remaining =>
      cases hsecond : other.checkLength value key with
      | error stop =>
          rw [hfirst, hsecond] at hsame
          cases hsame
      | ok left =>
          rw [hfirst, hsecond] at hsame
          exact .inr ⟨remaining, left, rfl, rfl, Except.ok.inj hsame⟩

theorem hasComparison_keep {key : String} (hkey : key ∈ knownFronts) (tokens : List String) :
    hasComparison key (tokens.filter isKnown) = hasComparison key tokens := by
  induction tokens with
  | nil => rfl
  | cons token tokens ih =>
      cases hknown : isKnown token with
      | false =>
          have hnone := splitOrStop_of_not_isKnown hknown hkey
          rw [List.filter_cons_of_neg (by simp [hknown]), ih]
          simp only [hasComparison, hnone, bind, Except.bind]
      | true =>
          rw [List.filter_cons_of_pos hknown]
          simp only [hasComparison, ih]

theorem Alike.missingStop_eq (h : rules.Alike other) {key : String} (hkey : key ∈ knownFronts) :
    rules.missingStop key = other.missingStop key := by
  have htokens : rules.tokens.filter isKnown = other.tokens.filter isKnown := congrArg RuleSet.tokens h
  rw [missingStop, missingStop, h.required_eq, ← hasComparison_keep hkey rules.tokens, htokens,
    hasComparison_keep hkey]

end RuleSet

/-! ## Scalars -/

namespace ScalarKind

open RuleSet (isKnown after?_eq_none splitOrStop_of_not_isKnown)

variable {rules other : RuleSet}

theorem tokenStop_eq_none {token : String} (h : isKnown token = false) (kind : ScalarKind) (value : Value) :
    kind.tokenStop value token = none := by
  have hvalue (kind : ScalarKind) : kind.valueStop value token = none := by
    simp only [valueStop, splitOrStop_of_not_isKnown h (by decide : "val" ∈ _)]
  cases kind with
  | text =>
      have hpattern : Text.argument? patternFront token = none := by
        rw [Text.argument?, after?_eq_none h (by decide)]
        rfl
      have hchoice : Text.argument? choiceFront token = none := by
        rw [Text.argument?, after?_eq_none h (by decide)]
        rfl
      simp only [tokenStop, textStop, splitOrStop_of_not_isKnown h (by decide : "len" ∈ _), hpattern, hchoice,
        hvalue]
  | _ => exact hvalue _

theorem checkStop_of_alike (h : rules.Alike other) (kind : ScalarKind) (value : Value) :
    kind.checkStop rules value = kind.checkStop other value := by
  have hrequired : kind.requiredStop rules value = kind.requiredStop other value := by
    rw [requiredStop, requiredStop, h.required_eq]
  have hknown : ∀ token stop, kind.tokenStop value token = some stop → isKnown token = true := by
    intro token stop hstop
    cases htoken : isKnown token with
    | true => rfl
    | false =>
        rw [tokenStop_eq_none htoken] at hstop
        cases hstop
  have htokens : rules.tokens.findSome? (kind.tokenStop value) =
      other.tokens.findSome? (kind.tokenStop value) := by
    have hkept : rules.tokens.filter isKnown = other.tokens.filter isKnown := congrArg RuleSet.tokens h
    rw [← List.head?_filterMap, ← List.head?_filterMap, ← filterMap_filter_of_keeps hknown, hkept,
      filterMap_filter_of_keeps hknown]
  rw [checkStop, checkStop, hrequired, htokens]

theorem visit_of_alike (h : rules.Alike other) (kind : ScalarKind) (writable : Bool) (held : Value) :
    kind.visit writable held rules = kind.visit writable held other := by
  have hfolding : ∀ token ∈ RuleSet.foldingTokens, rules.has token = other.has token := by
    intro token htoken
    have hword : RuleSet.knownWords.contains token = true :=
      List.contains_iff_mem.2 (List.mem_cons_of_mem _ htoken)
    exact h.has_eq (by rw [isKnown, hword, Bool.true_or])
  have hsettle := settle_congr h.default?_eq hfolding kind held
  have hcheck : kind.checkStop rules = kind.checkStop other := funext (checkStop_of_alike h kind)
  simp only [visit, hsettle, hcheck]

end ScalarKind

end RuleCheck
