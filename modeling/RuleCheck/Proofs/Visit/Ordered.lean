import RuleCheck.Proofs.Rules.Splitting
import RuleCheck.Proofs.Text.Joining
import RuleCheck.Proofs.Visit.Checked
import Mathlib.Algebra.Order.Field.Basic
import Mathlib.Algebra.Order.Ring.Rat
import Mathlib.Data.Rat.Cast.Order
import Mathlib.Data.String.Basic
import Mathlib.Order.WithBot

/-! # Comparisons on a line

The scalars of a kind lie on a line: texts by their code points, numbers by their exact values, durations and
moments by their microseconds.  A comparison holds of a scalar exactly if its position stands to that of the
literal as the operator says, and a visit with a comparison as its only rule passes exactly then.
-/

namespace RuleCheck

/-! ## Lines -/

namespace Number

/-- The exact numbers, with an end of the line on either side. -/
abbrev Exact := WithBot (WithTop ℚ)

def Exact.ofRat (q : ℚ) : Exact := (q : WithTop ℚ)

theorem Exact.ofRat_lt_ofRat {a b : ℚ} : ofRat a < ofRat b ↔ a < b :=
  WithBot.coe_lt_coe.trans WithTop.coe_lt_coe

namespace Point

def value : Point → Exact
  | below => ⊥
  | .at units => .ofRat (units / one)
  | above => ⊤

theorem value_ofInt (n : Int) : (ofInt n).value = .ofRat n := by
  have hpos := one_pos
  unfold ofInt value
  generalize one = places at hpos
  have hplaces : (places : ℚ) ≠ 0 := by exact_mod_cast hpos.ne'
  dsimp only
  rw [Int.cast_mul, Int.cast_natCast, mul_div_cancel_right₀ _ hplaces]

theorem lt_iff (p q : Point) : p.lt q = true ↔ p.value < q.value := by
  have hone : (0 : ℚ) < one := by exact_mod_cast one_pos
  unfold value
  generalize (one : ℚ) = places at hone
  cases p with
  | below =>
      cases q with
      | below => simp [lt]
      | «at» units => exact iff_of_true rfl (WithBot.bot_lt_coe _)
      | above => exact iff_of_true rfl bot_lt_top
  | «at» units =>
      cases q with
      | below => exact iff_of_false Bool.false_ne_true not_lt_bot
      | «at» other =>
          rw [Exact.ofRat_lt_ofRat, div_lt_div_iff_of_pos_right hone, Int.cast_lt]
          exact decide_eq_true_iff
      | above => exact iff_of_true rfl (WithBot.coe_lt_coe.2 (WithTop.coe_lt_top _))
  | above =>
      refine iff_of_false (by cases q <;> exact Bool.false_ne_true) ?_
      dsimp only
      exact not_top_lt

theorem value_inj {p q : Point} : p.value = q.value ↔ p = q := by
  refine ⟨fun h => ?_, congrArg value⟩
  have hlt : ¬ p.lt q = true := (lt_iff p q).not.2 h.not_lt
  have hgt : ¬ q.lt p = true := (lt_iff q p).not.2 h.not_gt
  cases p with
  | below =>
      cases q with
      | below => rfl
      | _ => exact absurd rfl hlt
  | «at» units =>
      cases q with
      | below => exact absurd rfl hgt
      | «at» other =>
          simp only [lt, decide_eq_true_eq] at hlt hgt
          rw [Int.le_antisymm (Int.not_lt.1 hgt) (Int.not_lt.1 hlt)]
      | above => exact absurd rfl hlt
  | above =>
      cases q with
      | above => rfl
      | _ => exact absurd rfl hgt

end Point

end Number

structure Order.IsOf {α : Type} [LinearOrder α] (order : Order) (p q : α) : Prop where
  less : order.less = true ↔ p < q
  equal : order.equal = true ↔ p = q
  greater : order.greater = true ↔ q < p

def Operator.Relates {α : Type} [LinearOrder α] : Operator → α → α → Prop
  | le, p, q => p ≤ q
  | lt, p, q => p < q
  | ge, p, q => q ≤ p
  | gt, p, q => q < p
  | ne, p, q => p ≠ q
  | eq, p, q => p = q

theorem Order.IsOf.holds_iff {α : Type} [LinearOrder α] {order : Order} {p q : α} (h : order.IsOf p q)
    (op : Operator) : op.holds order.less order.equal order.greater = true ↔ op.Relates p q := by
  cases op with
  | le => rw [Operator.holds, Bool.or_eq_true, h.less, h.equal, Operator.Relates, le_iff_lt_or_eq]
  | lt => exact h.less
  | ge => rw [Operator.holds, Bool.or_eq_true, h.greater, h.equal, Operator.Relates, le_iff_lt_or_eq, eq_comm]
  | gt => exact h.greater
  | ne => rw [Operator.holds, Bool.not_eq_true', ← Bool.not_eq_true, h.equal, Operator.Relates]
  | eq => exact h.equal

namespace ScalarKind

def Line : ScalarKind → Type
  | text => String
  | int | uint | duration | timestamp => Int
  | float | bool => Number.Exact

instance (kind : ScalarKind) : LinearOrder kind.Line :=
  match kind with
  | text => inferInstanceAs (LinearOrder String)
  | int | uint | duration | timestamp => inferInstanceAs (LinearOrder Int)
  | float | bool => inferInstanceAs (LinearOrder Number.Exact)

/-- The position of a scalar on the line of a kind; a moment without an offset is in universal time. -/
def position? (kind : ScalarKind) (content : Scalar) : Option kind.Line :=
  match kind, content with
  | text, .text s => some (s : String)
  | int, .int n | uint, .int n => some (n : Int)
  | float, .int n => some (Number.Exact.ofRat n)
  | float, .float x => x.point?.map Number.Point.value
  | bool, .bool b => some (Number.Exact.ofRat (if b then 1 else 0 : Int))
  | duration, .duration d => some (d.micros : Int)
  | timestamp, .moment m => some (m.instant : Int)
  | _, _ => none

end ScalarKind

/-! ## Orders on lines -/

namespace Order

/-- Two positions stand to each other as their images under a map that keeps the order. -/
theorem IsOf.of_strictMono {α β : Type} [LinearOrder α] [LinearOrder β] {order : Order} {f : α → β} {p q : α}
    (h : order.IsOf (f p) (f q)) (hf : StrictMono f) : order.IsOf p q :=
  ⟨h.less.trans hf.lt_iff_lt, h.equal.trans hf.injective.eq_iff, h.greater.trans hf.lt_iff_lt⟩

theorem isOf_ofInts (a b : Int) : (ofInts a b).IsOf a b :=
  ⟨decide_eq_true_iff, beq_iff_eq, decide_eq_true_iff⟩

theorem isOf_ofTexts (s t : String) : (ofTexts s t).IsOf s t :=
  ⟨decide_eq_true_iff, beq_iff_eq, decide_eq_true_iff⟩

theorem isOf_ofPoints (p q : Number.Point) : (ofPoints p q).IsOf p.value q.value :=
  ⟨p.lt_iff q, beq_iff_eq.trans Number.Point.value_inj.symm, q.lt_iff p⟩

end Order

namespace ScalarKind

variable {kind : ScalarKind} {a b : Scalar}

theorem exists_point_of_float {p : Number.Exact} (h : float.position? a = some p) :
    ∃ place : Number.Point, a.point? = some (some place) ∧ place.value = p := by
  cases a with
  | int n =>
      cases h
      exact ⟨.ofInt n, rfl, Number.Point.value_ofInt n⟩
  | float x =>
      obtain ⟨place, hplace, rfl⟩ := Option.map_eq_some_iff.1 h
      exact ⟨place, congrArg some hplace, rfl⟩
  | _ => cases h

theorem exists_point_of_bool {p : Number.Exact} (h : bool.position? a = some p) :
    ∃ place : Number.Point, a.point? = some (some place) ∧ place.value = p := by
  cases a with
  | bool value =>
      cases h
      exact ⟨_, rfl, Number.Point.value_ofInt _⟩
  | _ => cases h

theorem isOf_points {p q : Number.Exact}
    (ha : ∃ place : Number.Point, a.point? = some (some place) ∧ place.value = p)
    (hb : ∃ place : Number.Point, b.point? = some (some place) ∧ place.value = q) :
    ∃ order, a.universal.order? b.universal = some order ∧ order.IsOf p q := by
  obtain ⟨place, hplace, rfl⟩ := ha
  obtain ⟨other, hother, rfl⟩ := hb
  refine ⟨_, ?_, Order.isOf_ofPoints place other⟩
  cases a <;> cases b <;> simp_all [Scalar.universal, Scalar.order?, Scalar.point?]

theorem isOf_position {p q : kind.Line} (ha : kind.position? a = some p) (hb : kind.position? b = some q) :
    ∃ order, a.universal.order? b.universal = some order ∧ order.IsOf p q := by
  have hints (m n : Int) : (Order.ofPoints (.ofInt m) (.ofInt n)).IsOf m n := by
    have hvalues := Order.isOf_ofPoints (.ofInt m) (.ofInt n)
    rw [Number.Point.value_ofInt, Number.Point.value_ofInt] at hvalues
    have hmono : StrictMono fun n : Int => Number.Exact.ofRat n :=
      fun _ _ h => Number.Exact.ofRat_lt_ofRat.2 (Int.cast_lt.2 h)
    exact Order.IsOf.of_strictMono hvalues hmono
  cases kind with
  | text =>
      cases a <;> cases ha
      cases b <;> cases hb
      exact ⟨_, rfl, Order.isOf_ofTexts _ _⟩
  | int | uint =>
      cases a <;> cases ha
      cases b <;> cases hb
      exact ⟨_, rfl, hints _ _⟩
  | duration =>
      cases a <;> cases ha
      cases b <;> cases hb
      exact ⟨_, rfl, Order.isOf_ofInts _ _⟩
  | timestamp =>
      cases a <;> cases ha
      cases b <;> cases hb
      exact ⟨_, Scalar.order?_moments rfl, Order.isOf_ofInts _ _⟩
  | float => exact isOf_points (exists_point_of_float ha) (exists_point_of_float hb)
  | bool => exact isOf_points (exists_point_of_bool ha) (exists_point_of_bool hb)

/-- A comparison holds exactly if the positions stand to each other as its operator says. -/
theorem meets_iff {p q : kind.Line} (ha : kind.position? a = some p) (hb : kind.position? b = some q)
    (op : Operator) : a.Meets op b ↔ op.Relates p q := by
  obtain ⟨order, horder, hof⟩ := isOf_position ha hb
  rw [← hof.holds_iff, Scalar.Meets, horder]
  constructor
  · rintro ⟨_, ⟨⟩, hholds⟩
    exact hholds
  · intro hholds
    exact ⟨order, rfl, hholds⟩

end ScalarKind

/-! ## Positions of scalars -/

namespace Scalar

def isDefined : Scalar → Bool
  | float x => !x.isNaN
  | _ => true

def trimmed : Scalar → Scalar
  | text s => text (Text.strip s)
  | other => other

theorem base_trimmed (content : Scalar) : content.trimmed.base = content.base := by
  cases content <;> rfl

theorem isDefined_trimmed (content : Scalar) : content.trimmed.isDefined = content.isDefined := by
  cases content <;> rfl

theorem isNegative_trimmed (content : Scalar) : content.trimmed.isNegative = content.isNegative := by
  cases content <;> rfl

end Scalar

namespace ScalarKind

variable {kind : ScalarKind} {origin : Origin} {content : Scalar}

theorem suits_trimmed (h : kind.Suits (.scalar origin content)) (own : Origin) :
    kind.Suits (.scalar own content.trimmed) := by
  obtain ⟨_, _, hvalue, hbase⟩ := h
  cases hvalue
  exact ⟨own, _, rfl, by rwa [content.base_trimmed]⟩

/-- Every scalar of a kind lies on its line, the undefined number apart. -/
theorem exists_position (h : kind.Suits (.scalar origin content)) (hdefined : content.isDefined = true) :
    ∃ p, kind.position? content = some p := by
  obtain ⟨_, _, hvalue, hbase⟩ := h
  cases hvalue
  have hfloat {x : Number.Binary64} (hx : (Scalar.float x).isDefined = true) : ∃ place, x.point? = some place := by
    have hnan : x.isNaN = false := by simpa [Scalar.isDefined] using hx
    unfold Number.Binary64.point?
    rw [hnan, if_neg Bool.false_ne_true]
    split <;> exact ⟨_, rfl⟩
  cases kind <;> cases content <;> simp [Scalar.base, base] at hbase
  case float.float x =>
    obtain ⟨place, hplace⟩ := hfloat hdefined
    exact ⟨place.value, by rw [position?, hplace]; rfl⟩
  all_goals exact ⟨_, rfl⟩

end ScalarKind

/-! ## A comparison as the only rule -/

namespace Comparison

/-- A comparison of the value itself, as a token writes it. -/
def ofValue (op : Operator) (literal : String) : Comparison :=
  ⟨"val", op, literal, "val" ++ op.symbol ++ literal⟩

theorem split_ofValue {op : Operator} {literal : String} (h : op.Takes literal) :
    split (ofValue op literal).token "val" = .ok (some (ofValue op literal)) :=
  split_eq_some_iff.2 ⟨rfl, rfl, rfl, h⟩

theorem after?_ofValue (op : Operator) (literal : String) :
    Text.after? "val" (ofValue op literal).token = some (op.symbol ++ literal) :=
  Text.after?_eq_some_iff.2 (String.append_assoc ..)

theorem not_has_ofValue (op : Operator) (literal : String) {word : String} (hword : Text.Disjoint "val" word) :
    RuleSet.has ⟨[(ofValue op literal).token]⟩ word = false := by
  have hne := Text.ne_of_disjoint (after?_ofValue op literal) hword
  simp [RuleSet.has, hne.symm]

theorem default?_ofValue (op : Operator) (literal : String) :
    RuleSet.default? ⟨[(ofValue op literal).token]⟩ = none :=
  ScalarKind.default?_singleton (Text.after?_eq_none_of_disjoint (after?_ofValue op literal) (by decide))

end Comparison

namespace ScalarKind

open Comparison (ofValue)

variable {kind : ScalarKind} {origin : Origin} {content : Scalar} (op : Operator) (literal : String)

theorem trimmed_of_ne_text (h : kind.Suits (.scalar origin content)) (hkind : kind ≠ .text) :
    content.trimmed = content := by
  obtain ⟨_, _, hvalue, hbase⟩ := h
  cases hvalue
  cases content with
  | text s => cases kind <;> simp_all [Scalar.base, base]
  | _ => rfl

theorem settle_ofValue (h : kind.Suits (.scalar origin content)) :
    ∃ own changed, kind.settle ⟨[(ofValue op literal).token]⟩ (.scalar origin content) =
      .ok ⟨.scalar own content.trimmed, changed⟩ := by
  have hblanks : RuleSet.has ⟨[(ofValue op literal).token]⟩ RuleSet.keepBlanksToken = false :=
    Comparison.not_has_ofValue op literal (by decide)
  have hcapitals : RuleSet.has ⟨[(ofValue op literal).token]⟩ RuleSet.capitalsToken = false :=
    Comparison.not_has_ofValue op literal (by decide)
  have hsmalls : RuleSet.has ⟨[(ofValue op literal).token]⟩ RuleSet.smallsToken = false :=
    Comparison.not_has_ofValue op literal (by decide)
  have hdefault := Comparison.default?_ofValue op literal
  obtain ⟨folded, hfolded⟩ := folded?_of_suits h ⟨[(ofValue op literal).token]⟩
  have hvalue : ∃ own, folded.getD (.scalar origin content) = .scalar own content.trimmed := by
    rcases folded?_eq_ok hfolded with ⟨rfl, hkind | hoperation⟩ | ⟨own, s, rfl, hheld, rfl⟩
    · exact ⟨origin, by rw [trimmed_of_ne_text h hkind]; rfl⟩
    · simp [RuleSet.foldOperation?, hblanks] at hoperation
    · cases hheld
      exact ⟨.plain, by simp [RuleSet.foldText, hblanks, hcapitals, hsmalls, Value.ofText, Scalar.trimmed]⟩
  obtain ⟨own, hown⟩ := hvalue
  refine ⟨own, folded.any fun new => !new.same (.scalar origin content), ?_⟩
  simp [settle, Value.isNull, hfolded, default?, hdefault, hown, orFault, bind, Except.bind, pure, Except.pure]

theorem tokenStop_ofValue {op : Operator} {literal : String} (htakes : op.Takes literal) (value : Value) :
    kind.tokenStop value (ofValue op literal).token = kind.compareStop value (ofValue op literal) := by
  have hvalue : kind.valueStop value (ofValue op literal).token = kind.compareStop value (ofValue op literal) := by
    simp only [valueStop, Comparison.splitOrStop, Comparison.split_ofValue htakes]
  have hafter := Comparison.after?_ofValue op literal
  cases kind with
  | text =>
      have hlength : Comparison.split (ofValue op literal).token "len" = .ok none :=
        split_eq_none (Text.after?_eq_none_of_disjoint hafter (by decide))
      have hpattern : Text.argument? patternFront (ofValue op literal).token = none :=
        Text.argument?_eq_none_of_disjoint hafter (by decide)
      have hchoice : Text.argument? choiceFront (ofValue op literal).token = none :=
        Text.argument?_eq_none_of_disjoint hafter (by decide)
      simp only [tokenStop, textStop, Comparison.splitOrStop, hlength, hpattern, hchoice, hvalue]
  | _ => exact hvalue

theorem signStop_of_not_negative (h : kind.Suits (.scalar origin content))
    (hsign : kind = .uint → content.isNegative = false) : kind.signStop (.scalar origin content) = none := by
  cases kind with
  | uint =>
      obtain ⟨_, _, hvalue, hbase⟩ := h
      cases hvalue
      cases content <;> simp [Scalar.base, base] at hbase
      rename_i n
      have hzero : ¬ n < 0 := by simpa [Scalar.isNegative] using hsign rfl
      have hposition : int.position? (.int n) = some n := rfl
      have horigin : int.position? (.int 0) = some (0 : Int) := rfl
      obtain ⟨order, horder, hof⟩ := isOf_position hposition horigin
      have hless : order.less = false := by
        rw [Bool.eq_false_iff, ne_eq, hof.less]
        exact hzero
      have hcompare : (Scalar.int n).order? (.int 0) = some order := horder
      simp [signStop, Value.compare, Value.scalar?, hcompare, Operator.holds, hless]
  | _ => rfl

theorem checkStop_ofValue {op : Operator} {literal : String} (htakes : op.Takes literal)
    (h : kind.Suits (.scalar origin content)) (hsign : kind = .uint → content.isNegative = false) :
    kind.checkStop ⟨[(ofValue op literal).token]⟩ (.scalar origin content) =
      kind.compareStop (.scalar origin content) (ofValue op literal) := by
  have hrequired : RuleSet.required ⟨[(ofValue op literal).token]⟩ = false :=
    Comparison.not_has_ofValue op literal (by decide)
  simp [checkStop, requiredStop, hrequired, signStop_of_not_negative h hsign, tokenStop_ofValue htakes]

theorem compareStop_eq_none_iff (h : kind.Suits (.scalar origin content)) {c : Comparison} {threshold : Scalar}
    (hsupports : kind.supports c.op = true) (hread : kind.read c.literal = .ok threshold) :
    kind.compareStop (.scalar origin content) c = none ↔ content.Meets c.op threshold := by
  have hbase := base_of_read hread
  obtain ⟨holds, hholds⟩ := compare_of_suits h hbase c.op
  simp only [compareStop, hsupports, if_true, readOrStop_eq_ok.2 hread, hholds]
  cases holds with
  | true => exact iff_of_true rfl (meets_of_compare h hbase hholds)
  | false =>
      refine iff_of_false (Option.some_ne_none _) ?_
      rintro ⟨order, horder, hmeets⟩
      obtain ⟨own, hown, hcontent⟩ := comparable_of_suits h
      simp [hown, Except.bind, Value.compare, hcontent, comparableThreshold_of_base hbase, horder, hmeets]
        at hholds

/-- A visit with a comparison as its only rule passes exactly if the comparison holds of what is checked. -/
theorem visit_ofValue {op : Operator} {literal : String} {threshold : Scalar} (htakes : op.Takes literal)
    (hread : kind.read literal = .ok threshold) (hsupports : kind.supports op = true)
    (h : kind.Suits (.scalar origin content)) (hsign : kind = .uint → content.isNegative = false) :
    (kind.visit true (.scalar origin content) ⟨[(ofValue op literal).token]⟩).stop = none ↔
      content.trimmed.Meets op threshold := by
  obtain ⟨own, changed, hsettle⟩ := settle_ofValue op literal h
  have hown := suits_trimmed h own
  have hstop : (kind.visit true (.scalar origin content) ⟨[(ofValue op literal).token]⟩).stop =
      kind.checkStop ⟨[(ofValue op literal).token]⟩ (.scalar own content.trimmed) := by
    cases changed <;> simp [visit, hsettle]
  rw [hstop, checkStop_ofValue htakes hown (by rwa [content.isNegative_trimmed])]
  exact compareStop_eq_none_iff hown hsupports hread

end ScalarKind

end RuleCheck
