import RuleCheck.Proofs.Category.Present
import RuleCheck.Proofs.Session.Budget
import RuleCheck.Proofs.Visit.Ordered

/-! # Calls with a comparison

A call with a comparison as its only rule passes exactly if the position of the value, on the line of its kind,
stands to that of the literal as the operator says.  So the comparisons with one literal are those of a total
order, and those with two literals agree on which of the two is less.
-/

namespace RuleCheck

namespace RuleSet

theorem parse_token {token : String} (hne : token ≠ "") (hwhole : ',' ∉ token.toList)
    (htrimmed : Text.strip token = token) : parse token = ⟨[token]⟩ := by
  have hwritten : Written ⟨[token]⟩ := by
    intro other hother
    rw [List.mem_singleton.1 hother]
    exact ⟨hne, hwhole, htrimmed⟩
  have htext : text ⟨[token]⟩ = token := by simp [text]
  have hparse := parse_text hwritten
  rwa [htext] at hparse

end RuleSet

namespace ScalarKind

/-- A literal that can stand in a comparison as it is, and what it is read as. -/
structure IsThreshold (kind : ScalarKind) (literal : String) (threshold : Scalar) : Prop where
  nonempty : literal ≠ ""
  unmarked : Text.startsWith literal "=" = false
  whole : ',' ∉ literal.toList
  trimmed : Text.strip literal = literal
  reads : kind.read literal = .ok threshold
  defined : threshold.isDefined = true

namespace IsThreshold

variable {kind : ScalarKind} {literal : String} {threshold : Scalar}

theorem takes (h : kind.IsThreshold literal threshold) (op : Operator) : op.Takes literal :=
  fun _ => ⟨h.nonempty, h.unmarked⟩

theorem strip_token (h : kind.IsThreshold literal threshold) (op : Operator) :
    Text.strip (Comparison.ofValue op literal).token = (Comparison.ofValue op literal).token := by
  have hliteral : Text.Trimmed literal.toList := by
    rw [← h.trimmed, Text.toList_strip]
    exact Text.trimmed_trim _
  obtain ⟨last, hlast⟩ : ∃ last, literal.toList.getLast? = some last := by
    cases hend : literal.toList.getLast? with
    | some last => exact ⟨last, rfl⟩
    | none => exact absurd (String.toList_eq_nil_iff.1 (List.getLast?_eq_none_iff.1 hend)) h.nonempty
  have htoken : Text.Trimmed (Comparison.ofValue op literal).token.toList := by
    constructor
    · intro c hc
      simp only [Comparison.ofValue, String.toList_append] at hc
      cases hc
      decide
    · intro c hc
      simp only [Comparison.ofValue, String.toList_append, List.getLast?_append, hlast] at hc
      exact hliteral.2 c (hlast.trans hc)
  rw [Text.strip, Text.trim_eq_self htoken, String.ofList_toList]

theorem parse_token (h : kind.IsThreshold literal threshold) (op : Operator) :
    RuleSet.parse (Comparison.ofValue op literal).token = ⟨[(Comparison.ofValue op literal).token]⟩ := by
  refine RuleSet.parse_token ?_ ?_ (h.strip_token op)
  · simp [Comparison.ofValue]
  · have hcomma : ',' ∉ ("val" ++ op.symbol).toList := by cases op <;> decide
    simp only [Comparison.ofValue]
    rw [String.toList_append, List.mem_append]
    exact not_or_intro hcomma h.whole

theorem exists_position (h : kind.IsThreshold literal threshold) : ∃ q, kind.position? threshold = some q :=
  ScalarKind.exists_position (suits_ofScalar (base_of_read h.reads)) h.defined

end IsThreshold

theorem suits_of_resolvePresent {kind : ScalarKind} {value : Value} (hnull : value.isNull = false)
    {declared : Annotation} (hcategory : (value.resolvePresent declared).category = kind.category) :
    kind.Suits value := by
  obtain ⟨inner, hinner, -⟩ := Value.category_resolvePresent hnull declared
  refine (suits_of_resolve (hinner ▸ hcategory)).resolve_left ?_
  rintro rfl
  cases hnull

end ScalarKind

namespace Walk

/-- A value of a kind of scalars is visited as one, below the optional layers of its annotation. -/
theorem visit_scalar {walk : Walk} (hregistry : walk.evaluator? = Registry.standard.get?) {kind : ScalarKind}
    {value : Value} (hnull : value.isNull = false) {declared : Annotation}
    (hcategory : (value.resolvePresent declared).category = kind.category) {levels : Nat}
    (hlevels : declared.size ≤ levels) (writable : Bool) (rules : RuleSet) :
    walk.visit levels writable declared value rules = kind.visit writable value rules := by
  fun_induction Value.resolvePresent value declared generalizing levels with
  | case1 declared h ih =>
      have hsmaller := (Value.resolve_optional h.1 h.2).1
      obtain ⟨rest, rfl⟩ : ∃ rest, levels = rest + 1 := ⟨levels - 1, by omega⟩
      have hoptional : walk.evaluator? (value.resolve declared).category = some .optional := by
        rw [hregistry, h.2]
        rfl
      rw [visit, hoptional]
      simp only [evaluate, Visit.optional, hnull, Bool.false_eq_true, if_false]
      exact ih hcategory (by omega)
  | case2 declared h =>
      have hpos := declared.size_pos
      obtain ⟨rest, rfl⟩ : ∃ rest, levels = rest + 1 := ⟨levels - 1, by omega⟩
      have hserved : walk.evaluator? (value.resolve declared).category = some (.scalar kind) := by
        rw [hregistry, hcategory]
        cases kind <;> rfl
      rw [visit, hserved]
      rfl

end Walk

namespace Schema

variable {schema : Schema} (config : Config) (context : Value)

theorem visit_scalar {kind : ScalarKind} {value : Value} (hnull : value.isNull = false)
    {declared : Annotation} (hcategory : (value.resolvePresent declared).category = kind.category)
    (writable : Bool) (rules : RuleSet) :
    schema.visit ⟨config, .standard⟩ context writable declared value rules =
      kind.visit writable value rules := by
  have hbudget : Walk.need _ ⟨writable, declared, value, rules⟩ ≤
      Walk.budget schema config.tagKey declared value := need_le_budget config.tagKey _
  refine Walk.visit_scalar (schema.walk_registry config context) hnull hcategory ?_ writable rules
  unfold Walk.need at hbudget
  dsimp only at hbudget ⊢
  omega

end Schema

namespace Session

open Comparison (ofValue)

variable {schema : Schema} {session : Session}

/-- Whether a call with a comparison as its only rule passes. -/
def Accepts (session : Session) (config : Config) (value : Value) (declared : Annotation) (context : Value)
    (op : Operator) (literal : String) : Prop :=
  (session.validateValue ⟨config, .standard⟩ value ("val" ++ op.symbol ++ literal) declared context).1.stop = none

/-- A call with a comparison passes exactly if the positions stand to each other as the operator says. -/
theorem accepts_iff (hreach : Reachable schema session) (config : Config) {kind : ScalarKind}
    (hordered : kind.isOrdered = true) {origin : Origin} {content : Scalar} {declared : Annotation}
    (hcategory : ((Value.scalar origin content).resolvePresent declared).category = kind.category)
    (hsign : kind = .uint → content.isNegative = false) (context : Value) {literal : String} {threshold : Scalar}
    (hliteral : kind.IsThreshold literal threshold) {p q : kind.Line}
    (hp : kind.position? content.trimmed = some p) (hq : kind.position? threshold = some q) (op : Operator) :
    session.Accepts config (.scalar origin content) declared context op literal ↔ op.Relates p q := by
  have hsuits := ScalarKind.suits_of_resolvePresent rfl hcategory
  have hsupports : kind.supports op = true := by
    cases op <;> first | rfl | exact hordered
  have hparse : RuleSet.parse ("val" ++ op.symbol ++ literal) = ⟨[(ofValue op literal).token]⟩ :=
    hliteral.parse_token op
  have hvisit (rules : RuleSet) : schema.visit ⟨config, .standard⟩ context true declared (.scalar origin content)
      rules = kind.visit true (.scalar origin content) rules :=
    Schema.visit_scalar config context rfl hcategory true rules
  rw [Accepts, hreach.validateValue_eq, hparse, hvisit,
    ScalarKind.visit_ofValue (hliteral.takes op) hliteral.reads hsupports hsuits hsign,
    ScalarKind.meets_iff hp hq]

/--
The comparisons of a value that is there with literals of its kind are those of positions on a line.  So exactly
one of `val<a`, `val==a` and `val>a` passes, the other three operators are the opposites of these, and a value
that is at most one threshold is at most any threshold above it, and the other way round.  Of moments, offsets are
fixed numbers of whole seconds.
-/
theorem comparisons_ordered (hreach : Reachable schema session) (config : Config) {kind : ScalarKind}
    (hordered : kind.isOrdered = true) {value : Value} (hnull : value.isNull = false) {declared : Annotation}
    (hcategory : (value.resolvePresent declared).category = kind.category)
    (hvalue : ∀ content, value.scalar? = some content →
      content.isDefined = true ∧ (kind = .uint → content.isNegative = false))
    (context : Value) {a b : String} {s t : Scalar} (ha : kind.IsThreshold a s) (hb : kind.IsThreshold b t) :
    let accepts := session.Accepts config value declared context
    ∃ p q r : kind.Line, (∃ content, value.scalar? = some content ∧ kind.position? content.trimmed = some p) ∧
      kind.position? s = some q ∧ kind.position? t = some r ∧
      ((accepts .lt a ↔ p < q) ∧ (accepts .eq a ↔ p = q) ∧ (accepts .gt a ↔ q < p)) ∧
      (accepts .lt a ∧ ¬ accepts .eq a ∧ ¬ accepts .gt a ∨ ¬ accepts .lt a ∧ accepts .eq a ∧ ¬ accepts .gt a ∨
        ¬ accepts .lt a ∧ ¬ accepts .eq a ∧ accepts .gt a) ∧
      ((accepts .le a ↔ ¬ accepts .gt a) ∧ (accepts .ge a ↔ ¬ accepts .lt a) ∧
        (accepts .ne a ↔ ¬ accepts .eq a)) ∧
      (q ≤ r → (accepts .le a → accepts .le b) ∧ (accepts .ge b → accepts .ge a)) := by
  intro accepts
  have hsuits := ScalarKind.suits_of_resolvePresent hnull hcategory
  obtain ⟨origin, content, rfl, -⟩ := id hsuits
  obtain ⟨hdefined, hsign⟩ := hvalue content rfl
  rw [← content.isDefined_trimmed] at hdefined
  obtain ⟨p, hp⟩ := ScalarKind.exists_position (ScalarKind.suits_trimmed hsuits origin) hdefined
  obtain ⟨q, hq⟩ := ha.exists_position
  obtain ⟨r, hr⟩ := hb.exists_position
  have hfirst (op : Operator) : accepts op a ↔ op.Relates p q :=
    accepts_iff hreach config hordered hcategory hsign context ha hp hq op
  have hsecond (op : Operator) : accepts op b ↔ op.Relates p r :=
    accepts_iff hreach config hordered hcategory hsign context hb hp hr op
  refine ⟨p, q, r, ⟨content, rfl, hp⟩, hq, hr, ⟨hfirst .lt, hfirst .eq, hfirst .gt⟩, ?_, ?_, fun hle => ?_⟩
  · simp only [hfirst, Operator.Relates]
    rcases lt_trichotomy p q with hless | hsame | hmore
    · exact .inl ⟨hless, hless.ne, hless.not_gt⟩
    · exact .inr (.inl ⟨hsame.not_lt, hsame, hsame.not_gt⟩)
    · exact .inr (.inr ⟨hmore.not_gt, hmore.ne', hmore⟩)
  · simp only [hfirst, Operator.Relates, not_lt, ne_eq, and_self]
  · refine ⟨fun hbelow => (hsecond .le).2 ?_, fun habove => (hfirst .ge).2 ?_⟩
    · exact le_trans ((hfirst .le).1 hbelow) hle
    · exact le_trans hle ((hsecond .ge).1 habove)

/-- An integer between two floating-point numbers is not equal to the lower one, nor below it, but above it. -/
theorem comparisons_ordered_odd :
    Reachable .empty (start .empty) ∧ ScalarKind.float.isOrdered = true ∧
      ((Value.ofInt 9007199254740993).resolvePresent ScalarKind.float.declared).category =
        ScalarKind.float.category ∧
      ScalarKind.float.IsThreshold "9007199254740992" (.float ⟨0x4340000000000000⟩) ∧
      ScalarKind.float.IsThreshold "9007199254740994" (.float ⟨0x4340000000000001⟩) ∧
      let accepts := (start .empty).Accepts .standard (.ofInt 9007199254740993) ScalarKind.float.declared .null
      accepts .gt "9007199254740992" ∧ ¬ accepts .eq "9007199254740992" ∧ ¬ accepts .lt "9007199254740992" := by
  have hstart := @Reachable.start Schema.empty
  have hcategory : ((Value.ofInt 9007199254740993).resolvePresent ScalarKind.float.declared).category =
      ScalarKind.float.category := by
    rw [Value.resolvePresent_of_ne] <;> decide
  have hvalue : ∀ content, (Value.ofInt 9007199254740993).scalar? = some content →
      content.isDefined = true ∧ (ScalarKind.float = .uint → content.isNegative = false) := by
    rintro _ ⟨⟩
    exact ⟨rfl, nofun⟩
  have hlower : ScalarKind.float.IsThreshold "9007199254740992" (.float ⟨0x4340000000000000⟩) := by
    constructor <;> decide +kernel
  have hupper : ScalarKind.float.IsThreshold "9007199254740994" (.float ⟨0x4340000000000001⟩) := by
    constructor <;> decide +kernel
  obtain ⟨p, q, r, -, -, -, -, honly, -, -⟩ :=
    comparisons_ordered hstart .standard rfl rfl hcategory hvalue .null hlower hupper
  refine ⟨hstart, rfl, hcategory, hlower, hupper, ?_⟩
  have habove : (start .empty).Accepts .standard (.ofInt 9007199254740993) ScalarKind.float.declared .null .gt
      "9007199254740992" := by
    unfold Accepts
    decide +kernel
  rcases honly with ⟨-, -, hnot⟩ | ⟨-, -, hnot⟩ | ⟨hbelow, hsame, -⟩
  · exact absurd habove hnot
  · exact absurd habove hnot
  · exact ⟨habove, hsame, hbelow⟩

end Session

end RuleCheck
