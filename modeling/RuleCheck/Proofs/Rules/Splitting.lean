import RuleCheck.Visit.Compare

/-! # The parts of a comparison token

A comparison token is its key, its operator and its literal, one after another.  An operator of one character
takes no literal that is empty or goes on with an equals sign, which would be read as a part of the operator;
so a token is put together from parts in one way only, and those are the parts that it is taken apart into.
-/

namespace RuleCheck

namespace Operator

def letters (c : Char) (equals : Bool) : List Char :=
  if equals then [c, '='] else [c]

/-- Whether a literal can follow an operator without being read as a part of it. -/
def Takes (op : Operator) (literal : String) : Prop :=
  op.symbol.length = 1 → literal ≠ "" ∧ Text.startsWith literal "=" = false

theorem ofChar?_eq_some_iff {c : Char} {equals : Bool} {op : Operator} :
    ofChar? c equals = some op ↔ op.symbol.toList = letters c equals := by
  constructor
  · intro h
    unfold ofChar? at h
    split at h <;> cases h <;> rfl
  · intro h
    cases op <;> cases equals <;> simp [symbol, letters] at h <;> subst h <;> rfl

/-- Every operator is one character, with an equals sign after it or without. -/
theorem exists_letters (op : Operator) : ∃ c equals, op.symbol.toList = letters c equals := by
  cases op <;> first | exact ⟨_, true, rfl⟩ | exact ⟨_, false, rfl⟩

/-- Only what is written in a single character is particular about its literal. -/
theorem takes_ofList_iff {op : Operator} {c : Char} {equals : Bool} {literal : List Char}
    (h : op.symbol.toList = letters c equals) :
    op.Takes (String.ofList literal) ↔ (equals = false → literal ≠ [] ∧ literal.head? ≠ some '=') := by
  have hlength : op.symbol.length = 1 ↔ equals = false := by
    rw [← String.length_toList, h]
    cases equals <;> simp [letters]
  have hfront : Text.startsWith (String.ofList literal) "=" = false ↔ literal.head? ≠ some '=' := by
    cases literal with
    | nil => simp [Text.startsWith, Text.after?, Text.dropFront?]
    | cons d literal =>
        have hequals : '=' = d ↔ d = '=' := eq_comm
        simp [Text.startsWith, Text.after?, Text.dropFront?, hequals]
  unfold Takes
  rw [hlength, hfront, ne_eq, String.ofList_eq_empty_iff]

end Operator

namespace Comparison

open Operator (letters)

theorem splitOperator?_eq_none_iff {rest : List Char} : splitOperator? rest = none ↔ rest.length ≤ 1 := by
  unfold splitOperator?
  split
  · simp
  · simp
  · rename_i hequals hplain
    match rest with
    | [] | [_] => simp
    | c :: d :: literal => exact absurd rfl (hplain c d literal)

/-- The equals sign after the first character is taken, and then the rest is the literal. -/
theorem splitOperator?_eq_some_iff {rest literal : List Char} {c : Char} {equals : Bool} :
    splitOperator? rest = some (c, equals, literal) ↔
      rest = letters c equals ++ literal ∧
        (equals = false → literal ≠ [] ∧ literal.head? ≠ some '=') := by
  constructor
  · intro h
    unfold splitOperator? at h
    split at h
    · cases h
      exact ⟨rfl, nofun⟩
    · rename_i d literal' hequals
      cases h
      refine ⟨rfl, fun _ => ⟨nofun, fun hd => ?_⟩⟩
      exact hequals (Option.some.inj hd)
    · cases h
  · rintro ⟨rfl, hliteral⟩
    cases equals with
    | true => rfl
    | false =>
        obtain ⟨hne, hhead⟩ := hliteral rfl
        match literal with
        | [] => exact absurd rfl hne
        | d :: literal =>
            have hd : d ≠ '=' := fun hd => hhead (congrArg some hd)
            exact splitOperator?.eq_2 c d literal hd

variable {token key : String}

theorem split_eq_some_iff {c : Comparison} :
    split token key = .ok (some c) ↔
      c.key = key ∧ c.token = token ∧ key ++ c.op.symbol ++ c.literal = token ∧ c.op.Takes c.literal := by
  constructor
  · intro h
    unfold split at h
    split at h
    · cases h
    · rename_i first equals literal hfound
      obtain ⟨rest, hrest, hparts⟩ := Option.bind_eq_some_iff.1 hfound
      obtain ⟨hletters, hliteral⟩ := splitOperator?_eq_some_iff.1 hparts
      split at h
      · rename_i op hop
        cases h
        have hsymbol := Operator.ofChar?_eq_some_iff.1 hop
        refine ⟨rfl, rfl, ?_, (Operator.takes_ofList_iff hsymbol).2 hliteral⟩
        rw [Text.after?_eq_some_iff.1 hrest, String.append_assoc]
        apply congrArg (key ++ ·)
        apply String.toList_inj.1
        rw [hletters, String.toList_append, hsymbol, String.toList_ofList]
      · cases h
  · obtain ⟨key', op, literal, token'⟩ := c
    dsimp only
    rintro ⟨rfl, rfl, rfl, htakes⟩
    obtain ⟨first, equals, hsymbol⟩ := op.exists_letters
    rw [← String.ofList_toList (s := literal), Operator.takes_ofList_iff hsymbol] at htakes
    have hafter : Text.after? key' (key' ++ op.symbol ++ literal) = some (op.symbol ++ literal) :=
      Text.after?_eq_some_iff.2 (String.append_assoc ..)
    have hparts : splitOperator? (op.symbol ++ literal).toList = some (first, equals, literal.toList) := by
      rw [String.toList_append, hsymbol]
      exact splitOperator?_eq_some_iff.2 ⟨rfl, htakes⟩
    simp only [split, hafter, Option.bind_some, hparts, Operator.ofChar?_eq_some_iff.2 hsymbol,
      String.ofList_toList]

theorem split_eq_none_iff :
    split token key = .ok none ↔ ∀ rest, token = key ++ rest → rest.length ≤ 1 := by
  have hnone : split token key = .ok none ↔
      (Text.after? key token).bind (fun rest => splitOperator? rest.toList) = none := by
    unfold split
    split
    · rename_i hfound
      simp [hfound]
    · rename_i first equals literal hfound
      rw [hfound]
      split <;> simp
  rw [hnone, Option.bind_eq_none_iff]
  constructor
  · intro h rest hrest
    rw [← String.length_toList]
    exact splitOperator?_eq_none_iff.1 (h rest (Text.after?_eq_some_iff.2 hrest))
  · intro h rest hrest
    apply splitOperator?_eq_none_iff.2
    rw [String.length_toList]
    exact h rest (Text.after?_eq_some_iff.1 hrest)

/--
A token splits into a key, an operator and a literal exactly if it is what they make up and the operator can take
the literal.  It is no comparison of a key exactly if it does not start with the key, or goes on with at most one
character; and every other token has an operator that is reported as unknown.
-/
theorem split_inverts_writing (token key : String) :
    (∀ c : Comparison, split token key = .ok (some c) ↔ c.key = key ∧ c.token = token ∧
        key ++ c.op.symbol ++ c.literal = token ∧ c.op.Takes c.literal) ∧
      (split token key = .ok none ↔ ∀ rest, token = key ++ rest → rest.length ≤ 1) ∧
      ((∃ reason : Reason, reason.kind = .ruleFormat ∧
          splitOrStop token key = .error (.refuse reason)) ↔
        (∃ rest, token = key ++ rest ∧ 2 ≤ rest.length) ∧
          ¬ ∃ (op : Operator) (literal : String), token = key ++ op.symbol ++ literal ∧
            op.Takes literal) := by
  refine ⟨fun c => split_eq_some_iff, split_eq_none_iff, ?_⟩
  have hcomparison : (∃ c, split token key = .ok (some c)) ↔
      ∃ (op : Operator) (literal : String), token = key ++ op.symbol ++ literal ∧ op.Takes literal := by
    constructor
    · rintro ⟨c, hc⟩
      obtain ⟨-, -, htoken, htakes⟩ := split_eq_some_iff.1 hc
      exact ⟨c.op, c.literal, htoken.symm, htakes⟩
    · rintro ⟨op, literal, htoken, htakes⟩
      exact ⟨⟨key, op, literal, token⟩, split_eq_some_iff.2 ⟨rfl, rfl, htoken.symm, htakes⟩⟩
  have hlong : split token key ≠ .ok none ↔ ∃ rest, token = key ++ rest ∧ 2 ≤ rest.length := by
    rw [ne_eq, split_eq_none_iff]
    simp only [Classical.not_forall, exists_prop, Nat.not_le, Nat.lt_iff_add_one_le]
  rw [← hcomparison, ← hlong]
  unfold splitOrStop
  cases hsplit : split token key with
  | error op => simpa using ⟨.unknownOperator op.text, rfl, rfl⟩
  | ok found => cases found <;> simp

example : split "val!==" "val" = .ok (some ⟨"val", .ne, "=", "val!=="⟩) := by rfl

end Comparison

end RuleCheck
