import RuleCheck.Proofs.Category.Resolution
import RuleCheck.Visit.Scalar

/-! # What settling a scalar can do

A scalar is settled in three steps: a missing value starts as the zero of its kind, a text is folded,
and a zero gives way to the default.  What is written is a plain scalar of the kind and differs from
what was held.
-/

namespace RuleCheck

namespace Scalar

theorem same_float_self {x : Number.Binary64} {p : Number.Point} (h : x.point? = some p) :
    (float x).same (float x) = true := by
  simp [same, order?, point?, h, Order.ofPoints]

/-- Only an undefined number is not equal to itself, and nothing is equal to it. -/
theorem same_self_of_same {a b : Scalar} (h : a.same b = true) : a.same a = true := by
  cases a with
  | bool value => simp [same, order?, point?, Order.ofPoints]
  | int value => simp [same, order?, point?, Order.ofPoints]
  | text value => simp [same, order?, Order.ofTexts]
  | duration value => simp [same, order?, Order.ofInts]
  | moment value => simp [same, order?, Order.ofInts]
  | float value =>
      cases hpoint : value.point? with
      | some p => exact same_float_self hpoint
      | none => cases b <;> simp [same, order?, point?, hpoint, Order.unrelated] at h

end Scalar

theorem RuleSet.foldText_empty (rules : RuleSet) : rules.foldText "" = "" := by
  have hstrip : Text.strip "" = "" := by decide +kernel
  have hupper : Text.upper "" = "" := by decide +kernel
  have hlower : Text.lower "" = "" := by decide +kernel
  simp only [foldText, hstrip, ite_self, hupper, hlower]

namespace ScalarKind

theorem orFault_eq_ok {α : Type} {result : Except Fault α} {a : α} :
    orFault result = .ok a ↔ result = .ok a := by
  cases result <;> simp [orFault]

theorem readOrStop_eq_ok {kind : ScalarKind} {literal token : String} {content : Scalar} :
    kind.readOrStop literal token = .ok content ↔ kind.read literal = .ok content := by
  unfold readOrStop
  cases kind.read literal <;> simp

private theorem bind_eq_ok {α β : Type} {result : Except Stop α} {next : α → Except Stop β} {b : β} :
    result.bind next = .ok b ↔ ∃ a, result = .ok a ∧ next a = .ok b := by
  cases result <;> simp [Except.bind]

def start (kind : ScalarKind) (held : Value) : Value :=
  if held.isNull then .ofScalar kind.zero else held

theorem start_of_present (kind : ScalarKind) {held : Value} (h : held.isNull = false) :
    kind.start held = held := by
  simp [start, h]

/-! ## The three steps -/

/-- Folding puts a text in the place of a text, and leaves a text alone only if the rules ask for nothing. -/
theorem folded?_eq_ok {kind : ScalarKind} {rules : RuleSet} {value : Value} {folded : Option Value}
    (h : kind.folded? rules value = .ok folded) :
    (folded = none ∧ (kind ≠ .text ∨ rules.foldOperation? = none)) ∨
      ∃ origin s, kind = .text ∧ value = .scalar origin (.text s) ∧
        folded = some (.ofText (rules.foldText s)) := by
  unfold folded? at h
  by_cases hkind : kind = .text
  · subst hkind
    cases hop : rules.foldOperation? with
    | none => simp_all
    | some operation =>
        simp only [hop] at h
        split at h
        · cases h
          exact .inr ⟨_, _, rfl, rfl, rfl⟩
        · cases h
  · cases kind <;> simp_all

theorem default?_eq_ok {kind : ScalarKind} {rules : RuleSet} {value : Value}
    {default : Option Value} (h : kind.default? rules value = .ok default) (new : Value)
    (hnew : default = some new) :
    ∃ literal content, rules.default? = some literal ∧ kind.isZero value = .ok true ∧
      kind.read literal = .ok content ∧ new = .ofScalar content ∧ new.same value = false := by
  unfold default? at h
  cases hliteral : rules.default? with
  | none => simp [hliteral, hnew] at h
  | some literal =>
      simp only [hliteral, bind, bind_eq_ok, orFault_eq_ok, pure, Except.pure] at h
      obtain ⟨zero, hzero, h⟩ := h
      cases zero with
      | false => simp [hnew] at h
      | true =>
          simp only [if_true, bind_eq_ok, readOrStop_eq_ok] at h
          obtain ⟨content, hcontent, h⟩ := h
          subst hnew
          by_cases hsame : (Value.ofScalar content).same value = true
          · simp [hsame] at h
          · simp only [hsame, Except.ok.injEq] at h
            cases h
            exact ⟨literal, content, rfl, hzero, hcontent, rfl, by simpa using hsame⟩

structure Settling (kind : ScalarKind) (rules : RuleSet) (held : Value) (settled : Settled)
    (folded default : Option Value) : Prop where
  folding : kind.folded? rules (kind.start held) = .ok folded
  defaulting : kind.default? rules (folded.getD (kind.start held)) = .ok default
  value_eq : settled.value = default.getD (folded.getD (kind.start held))
  changed_of_null : held.isNull = true → kind.isZero settled.value = .ok !settled.changed
  changed_of_present : held.isNull = false →
    settled.changed = (default.orElse fun _ => folded).any fun new => !new.same held

theorem settle_eq_ok {kind : ScalarKind} {rules : RuleSet} {held : Value} {settled : Settled}
    (h : kind.settle rules held = .ok settled) :
    ∃ folded default, kind.Settling rules held settled folded default := by
  unfold settle at h
  simp only [bind, bind_eq_ok, orFault_eq_ok, pure, Except.pure] at h
  obtain ⟨folded, hfolded, default, hdefault, h⟩ := h
  refine ⟨folded, default, ?_⟩
  cases hnull : held.isNull with
  | true =>
      simp only [hnull, if_true, bind_eq_ok, orFault_eq_ok, Except.ok.injEq] at h
      obtain ⟨zero, hzero, rfl⟩ := h
      exact ⟨hfolded, hdefault, by simp [start, hnull], by simp [hzero], by simp [hnull]⟩
  | false =>
      simp only [hnull, Bool.false_eq_true, if_false, Except.ok.injEq] at h
      subst h
      exact ⟨hfolded, hdefault, by simp [start, hnull], by simp [hnull], fun _ => rfl⟩

/-! ## Missing scalars -/

theorem isZero_zero (kind : ScalarKind) : kind.isZero (.ofScalar kind.zero) = .ok true := by
  have hsame : (Value.ofScalar kind.zero).same (.ofScalar kind.zero) = true := by
    cases kind <;> decide +kernel
  cases kind <;> first
    | exact congrArg Except.ok hsame
    | rfl

theorem signStop_zero (kind : ScalarKind) : kind.signStop (.ofScalar kind.zero) = none := by
  cases kind <;> decide +kernel

/-- Without a default, a missing value is settled as the zero of its kind. -/
theorem settle_null {rules : RuleSet} (hdefault : rules.default? = none) (kind : ScalarKind) :
    kind.settle rules .null = .ok ⟨.ofScalar kind.zero, false⟩ := by
  have hfolded : ∃ folded, kind.folded? rules (.ofScalar kind.zero) = .ok folded ∧
      folded.getD (.ofScalar kind.zero) = .ofScalar kind.zero := by
    cases kind with
    | text =>
        cases hoperation : rules.foldOperation? with
        | none => exact ⟨none, by simp [folded?, hoperation], rfl⟩
        | some operation =>
            refine ⟨some (.ofText (rules.foldText "")), ?_, ?_⟩
            · simp [folded?, hoperation, zero, Value.ofScalar]
            · rw [rules.foldText_empty]
              rfl
    | _ => exact ⟨none, by simp [folded?], rfl⟩
  obtain ⟨folded, hfolded, hvalue⟩ := hfolded
  unfold settle default?
  simp only [Value.isNull, if_true, hdefault, hfolded, orFault, bind, Except.bind, hvalue,
    Option.getD_none, isZero_zero, pure, Except.pure, Bool.not_true]

/-- Without a default, a visit to a missing scalar leaves it alone and checks the zero of its kind. -/
theorem visit_null {rules : RuleSet} (hdefault : rules.default? = none) (kind : ScalarKind)
    (writable : Bool) :
    kind.visit writable .null rules =
      ⟨.null, false, [], kind.checkStop rules (.ofScalar kind.zero)⟩ := by
  simp only [visit, settle_null hdefault, Bool.false_eq_true, if_false]

/-! ## What is written -/

theorem same_self_of_isZero {kind : ScalarKind} {content : Scalar}
    (h : kind.isZero (.ofScalar content) = .ok true) : content.same content = true := by
  cases kind <;> simp only [isZero, Value.ofScalar, Value.same, Value.scalar?, Except.ok.injEq,
    Option.any_some] at h
  case timestamp =>
    split at h
    · rename_i hvalue
      cases hvalue
      simp [Scalar.same, Scalar.order?, Order.ofInts]
    · cases h
  all_goals exact Scalar.same_self_of_same h

section

variable {kind : ScalarKind} {rules : RuleSet} {held : Value} {settled : Settled}
  {folded default : Option Value}

theorem Settling.written_of_null (h : kind.Settling rules held settled folded default)
    (hnull : held.isNull = true) :
    ∃ content, settled.value = .ofScalar content ∧ content.base = kind.base ∧
      settled.value ≠ held := by
  have hfolded := folded?_eq_ok h.folding
  have hdefault := default?_eq_ok h.defaulting
  have hvalue := h.value_eq
  have hne : ∀ content, Value.ofScalar content ≠ held := by
    rintro content rfl
    cases hnull
  cases hnew : default with
  | some new =>
      obtain ⟨literal, content, -, -, hread, rfl, -⟩ := hdefault new hnew
      refine ⟨content, by rw [hvalue, hnew]; rfl, base_of_read hread, ?_⟩
      rw [hvalue, hnew]
      exact hne content
  | none =>
      rw [hnew] at hvalue
      rcases hfolded with ⟨rfl, -⟩ | ⟨origin, s, rfl, -, rfl⟩
      · simp only [Option.getD_none, start, hnull, if_true] at hvalue
        exact ⟨kind.zero, hvalue, base_zero kind, by rw [hvalue]; exact hne _⟩
      · exact ⟨_, hvalue, rfl, by rw [hvalue]; exact hne _⟩

theorem Settling.written_of_present (h : kind.Settling rules held settled folded default)
    (hnull : held.isNull = false) (hchanged : settled.changed = true) :
    ∃ content, settled.value = .ofScalar content ∧ content.base = kind.base ∧
      settled.value ≠ held := by
  have hfolded := folded?_eq_ok h.folding
  have hdefault := default?_eq_ok h.defaulting
  have hvalue := h.value_eq
  rw [h.changed_of_present hnull] at hchanged
  rw [start_of_present kind hnull] at hfolded hdefault hvalue
  cases hnew : default with
  | some new =>
      obtain ⟨literal, content, -, hzero, hread, rfl, hother⟩ := hdefault new hnew
      simp only [hnew, Option.orElse_some, Option.any_some, Bool.not_eq_true'] at hchanged
      refine ⟨content, by rw [hvalue, hnew]; rfl, base_of_read hread, ?_⟩
      rw [hvalue, hnew, Option.getD_some]
      -- a held value that settles to itself was taken for a zero, so it equals itself
      rintro rfl
      rcases hfolded with ⟨rfl, -⟩ | ⟨origin, s, rfl, hheld, rfl⟩
      · have hself := same_self_of_isZero hzero
        simp only [Value.ofScalar, Value.same, Value.scalar?, Option.any_some] at hchanged
        simp [hself] at hchanged
      · cases hheld
        simp [Value.ofScalar, Value.same, Value.scalar?, Scalar.same, Scalar.order?,
          Order.ofTexts] at hchanged
  | none =>
      rw [hnew] at hvalue hchanged
      rcases hfolded with ⟨rfl, -⟩ | ⟨origin, s, rfl, hheld, rfl⟩
      · simp at hchanged
      · refine ⟨_, hvalue, rfl, ?_⟩
        rw [hvalue, hheld]
        intro heq
        obtain ⟨-, htext⟩ : Origin.plain = origin ∧ rules.foldText s = s := by
          simpa [Value.ofText] using heq
        simp [hheld, htext, Value.ofText, Value.same, Value.scalar?, Scalar.same, Scalar.order?,
          Order.ofTexts] at hchanged

/-- What settling arrived at, if it is to be written: a plain scalar of the kind, not the held one. -/
theorem Settling.written (h : kind.Settling rules held settled folded default)
    (hchanged : settled.changed = true) :
    ∃ content, settled.value = .ofScalar content ∧ content.base = kind.base ∧
      settled.value ≠ held := by
  cases hnull : held.isNull with
  | true => exact h.written_of_null hnull
  | false => exact h.written_of_present hnull hchanged

end

/-- A visit to a scalar that nothing stopped left it alone, or wrote a plain scalar of its kind. -/
theorem visit_passed {kind : ScalarKind} {writable : Bool} {held : Value} {rules : RuleSet}
    (hpass : (kind.visit writable held rules).stop = none) :
    ∃ settled, kind.settle rules held = .ok settled ∧ kind.checkStop rules settled.value = none ∧
      (settled.changed = false ∧ (kind.visit writable held rules).value = held ∧
          (kind.visit writable held rules).replaced = false ∨
        settled.changed = true ∧ writable = true ∧
          (kind.visit writable held rules).value = settled.value ∧
          (kind.visit writable held rules).replaced = true) := by
  unfold visit at hpass ⊢
  cases hsettle : kind.settle rules held with
  | error stop => simp [hsettle, Visit.halt] at hpass
  | ok settled =>
      refine ⟨settled, rfl, ?_⟩
      simp only [hsettle] at hpass ⊢
      cases hchanged : settled.changed <;> cases writable <;>
        simp_all [Visit.refuse, Visit.halt]

theorem visit_written {kind : ScalarKind} {writable : Bool} {held : Value} {rules : RuleSet}
    (hpass : (kind.visit writable held rules).stop = none) :
    ((kind.visit writable held rules).value = held ∧
        (kind.visit writable held rules).replaced = false) ∨
      ∃ content, (kind.visit writable held rules).value = .ofScalar content ∧
        content.base = kind.base ∧ .ofScalar content ≠ held ∧
        (kind.visit writable held rules).replaced = true := by
  obtain ⟨settled, hsettle, -, ⟨-, hvalue, hreplaced⟩ | ⟨hchanged, -, hvalue, hreplaced⟩⟩ :=
    visit_passed hpass
  · exact .inl ⟨hvalue, hreplaced⟩
  · obtain ⟨folded, default, h⟩ := settle_eq_ok hsettle
    obtain ⟨content, hcontent, hbase, hne⟩ := h.written hchanged
    rw [hcontent] at hvalue hne
    exact .inr ⟨content, hvalue, hbase, hne, hreplaced⟩

end ScalarKind

end RuleCheck
