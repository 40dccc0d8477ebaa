import RuleCheck.Proofs.Visit.Checked

/-! # What a check of lengths has found

All comparisons of the length hold, and they are what is taken out of the rules.
-/

namespace RuleCheck

/-- What is found in a list is found in what a test leaves of it that keeps all that can be found. -/
theorem filterMap_filter_of_keeps {α β : Type} {find : α → Option β} {keep : α → Bool}
    (h : ∀ a b, find a = some b → keep a = true) (list : List α) :
    (list.filter keep).filterMap find = list.filterMap find := by
  induction list with
  | nil => rfl
  | cons a list ih =>
      cases hfound : find a with
      | none => cases htest : keep a <;> simp [htest, hfound, ih]
      | some b => simp [h a b hfound, hfound, ih]

def Comparison.isOf (key token : String) : Bool :=
  match split token key with
  | .ok (some _) => true
  | _ => false

namespace RuleSet

def withoutKey (rules : RuleSet) (key : String) : RuleSet :=
  ⟨rules.tokens.filter fun token => !Comparison.isOf key token⟩

/-- Whether all comparisons of a key hold of the length of a value. -/
def LengthsHold (rules : RuleSet) (key : String) (value : Value) : Prop :=
  ∀ token ∈ rules.tokens, Comparison.Holds token key fun c =>
    ∃ n, value.length? = some n ∧ c.LengthHolds n

theorem checkLength_congr {value value' : Value} (hnull : value'.isNull = value.isNull)
    (hlength : value'.lengthOrFault = value.lengthOrFault) (rules : RuleSet) (key : String) :
    rules.checkLength value' key = rules.checkLength value key := by
  unfold checkLength
  generalize rules.tokens = tokens
  induction tokens generalizing rules with
  | nil => rfl
  | cons token tokens ih =>
      simp only [checkLengthTokens, hnull, hlength]
      congr
      funext found
      cases found with
      | none => exact ih rules
      | some c => simp only [ih]

theorem length?_of_lengthOrFault {value : Value} {n : Nat} (h : value.lengthOrFault = .ok n) :
    value.length? = some n := by
  unfold Value.lengthOrFault at h
  split at h
  · cases h
  · split at h
    · rename_i hlength
      cases h
      exact hlength
    · cases h

theorem checkLengthTokens_eq_ok {value : Value} {key : String} {tokens : List String}
    {rules remaining : RuleSet} (h : checkLengthTokens value key tokens rules = .ok remaining) :
    (∀ token ∈ tokens, Comparison.Holds token key fun c =>
        ∃ n, value.length? = some n ∧ c.LengthHolds n) ∧
      remaining.tokens = rules.tokens.filter fun token =>
        !(tokens.contains token && Comparison.isOf key token) := by
  induction tokens generalizing rules with
  | nil =>
      cases h
      exact ⟨by simp, (List.filter_eq_self.2 (by simp)).symm⟩
  | cons token tokens ih =>
      simp only [checkLengthTokens, Comparison.splitOrStop, bind, Except.bind] at h
      cases hsplit : Comparison.split token key with
      | error op => simp [hsplit] at h
      | ok found =>
          simp only [hsplit] at h
          cases found with
          | none =>
              have hother : Comparison.isOf key token = false := by simp [Comparison.isOf, hsplit]
              obtain ⟨hholds, htokens⟩ := ih h
              refine ⟨?_, ?_⟩
              · intro other hmem
                rcases List.mem_cons.1 hmem with rfl | hmem
                · exact ⟨none, hsplit, by simp⟩
                · exact hholds other hmem
              · rw [htokens]
                refine List.filter_congr fun other _ => ?_
                by_cases hsame : other = token
                · simp [hsame, hother]
                · simp [hsame]
          | some c =>
              have hown : Comparison.isOf key token = true := by simp [Comparison.isOf, hsplit]
              cases hnull : value.isNull with
              | true => simp [hnull] at h
              | false =>
                  simp only [hnull, Bool.false_eq_true, if_false] at h
                  cases hstop : c.lengthStop value.lengthOrFault with
                  | some stop => simp [hstop] at h
                  | none =>
                      simp only [hstop] at h
                      obtain ⟨hholds, htokens⟩ := ih h
                      refine ⟨?_, ?_⟩
                      · intro other hmem
                        rcases List.mem_cons.1 hmem with rfl | hmem
                        · refine ⟨some c, hsplit, ?_⟩
                          rintro _ ⟨⟩
                          obtain ⟨n, hlength, hn⟩ := Comparison.lengthStop_eq_none hstop
                          exact ⟨n, length?_of_lengthOrFault hlength, hn⟩
                        · exact hholds other hmem
                      · rw [htokens, without, List.filter_filter]
                        refine List.filter_congr fun other _ => ?_
                        by_cases hsame : other = token
                        · simp [hsame, hown]
                        · simp [hsame]

/-- The comparisons of a length that let a value pass hold, and the rest of the rules remains. -/
theorem checkLength_eq_ok {value : Value} {key : String} {rules remaining : RuleSet}
    (h : rules.checkLength value key = .ok remaining) :
    rules.LengthsHold key value ∧ remaining = rules.withoutKey key := by
  obtain ⟨hholds, htokens⟩ := checkLengthTokens_eq_ok h
  refine ⟨hholds, ?_⟩
  have hsame : remaining.tokens = (rules.withoutKey key).tokens := by
    rw [htokens]
    refine List.filter_congr fun token htoken => ?_
    simp [htoken]
  cases remaining
  rw [mk.injEq]
  exact hsame

def PassesLength (value : Value) (key token : String) : Prop :=
  ∃ found, Comparison.splitOrStop token key = .ok found ∧
    ∀ c, found = some c → value.isNull = false ∧ c.lengthStop value.lengthOrFault = none

theorem checkLengthTokens_passes_iff {value : Value} {key : String} {tokens : List String}
    (rules : RuleSet) :
    (∃ remaining, checkLengthTokens value key tokens rules = .ok remaining) ↔
      ∀ token ∈ tokens, PassesLength value key token := by
  induction tokens generalizing rules with
  | nil => simp [checkLengthTokens]
  | cons token tokens ih =>
      simp only [checkLengthTokens, bind, Except.bind, List.forall_mem_cons]
      cases hsplit : Comparison.splitOrStop token key with
      | error stop => simp [PassesLength, hsplit]
      | ok found =>
          cases found with
          | none => simp [PassesLength, hsplit, ih]
          | some c =>
              cases hnull : value.isNull with
              | true => simp [PassesLength, hsplit, hnull]
              | false =>
                  cases hstop : c.lengthStop value.lengthOrFault with
                  | some stop => simp [PassesLength, hsplit, hstop]
                  | none => simp [PassesLength, hsplit, hstop, hnull, ih]

theorem checkLength_of_lengthsHold {value : Value} {key : String} {rules : RuleSet}
    (hnull : value.isNull = false) (hsize : value.isOversized = false)
    (h : rules.LengthsHold key value) :
    rules.checkLength value key = .ok (rules.withoutKey key) := by
  have htokens : ∀ token ∈ rules.tokens, PassesLength value key token := by
    intro token htoken
    obtain ⟨found, hsplit, hholds⟩ := h token htoken
    refine ⟨found, by simp [Comparison.splitOrStop, hsplit], fun c hc => ⟨hnull, ?_⟩⟩
    obtain ⟨n, hlength, limit, hread, hlimit⟩ := hholds c hc
    simp [Comparison.lengthStop, Value.lengthOrFault, hsize, hlength, hread, hlimit]
  obtain ⟨remaining, hpass⟩ := (checkLengthTokens_passes_iff rules).2 htokens
  rw [← (checkLength_eq_ok hpass).2]
  exact hpass

theorem hasComparison_eq_ok {key : String} {tokens : List String}
    (h : hasComparison key tokens = .ok false) :
    ∀ token ∈ tokens, Comparison.split token key = .ok none := by
  induction tokens with
  | nil => simp
  | cons token tokens ih =>
      simp only [hasComparison, Comparison.splitOrStop, bind, Except.bind] at h
      cases hsplit : Comparison.split token key with
      | error op => simp [hsplit] at h
      | ok found =>
          simp only [hsplit] at h
          cases found with
          | some c => cases h
          | none =>
              intro other hmem
              rcases List.mem_cons.1 hmem with rfl | hmem
              · exact hsplit
              · exact ih h other hmem

/-- Nothing passes in the place of a sequence or mapping only if no rule asks for anything of it. -/
theorem missingStop_eq_none {rules : RuleSet} {key : String} (h : rules.missingStop key = none) :
    rules.required = false ∧ ∀ token ∈ rules.tokens, Comparison.split token key = .ok none := by
  unfold missingStop at h
  cases hrequired : rules.required with
  | true => simp [hrequired] at h
  | false =>
      cases hfound : hasComparison key rules.tokens with
      | error stop => simp [hrequired, hfound] at h
      | ok found =>
          cases found with
          | true => simp [hrequired, hfound] at h
          | false => exact ⟨rfl, hasComparison_eq_ok hfound⟩

/-! ## What else the rules say -/

def keep (rules : RuleSet) (test : String → Bool) : RuleSet :=
  ⟨rules.tokens.filter test⟩

theorem default?_keep {test : String → Bool}
    (h : ∀ token literal, Text.after? defaultFront token = some literal → test token = true)
    (rules : RuleSet) : (rules.keep test).default? = rules.default? := by
  unfold default? keep
  rw [← List.head?_filterMap, ← List.head?_filterMap, filterMap_filter_of_keeps h]

theorem isOf_eq_false_of_disjoint {key front token rest : String}
    (h : Text.after? front token = some rest) (hdisjoint : Text.Disjoint front key) :
    Comparison.isOf key token = false := by
  have hsplit := ScalarKind.split_eq_none (Text.after?_eq_none_of_disjoint h hdisjoint)
  simp [Comparison.isOf, hsplit]

/-- No literal for a zero value is among the comparisons of a key. -/
theorem default?_withoutKey {key : String} (hkey : Text.Disjoint defaultFront key)
    (rules : RuleSet) : (rules.withoutKey key).default? = rules.default? := by
  refine default?_keep (fun token literal hliteral => ?_) rules
  simp [isOf_eq_false_of_disjoint hliteral hkey]

theorem shiftsZero_withoutKey {key : String} (hkey : Text.Disjoint defaultFront key)
    {rules : RuleSet} : (rules.withoutKey key).ShiftsZero ↔ rules.ShiftsZero := by
  unfold ShiftsZero
  rw [default?_withoutKey hkey]

end RuleSet

end RuleCheck
