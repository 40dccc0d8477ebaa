import RuleCheck.Proofs.Visit.Escaping

/-! # What a visit to a scalar has checked

A scalar satisfies rules if every token that its kind looks at holds of it.  Nothing counts as the zero of
the kind, and a moment without an offset as one in universal time.
-/

namespace RuleCheck

namespace Number.Point

theorem one_pos : 0 < one := by
  decide +kernel

theorem ofInt_beq_zero (n : Int) : (ofInt n == .at 0) = (n == 0) := by
  have hpos := one_pos
  unfold ofInt
  -- the number of places between two whole numbers must not be computed
  generalize one = places at hpos
  have hplaces : (places : Int) ≠ 0 := by omega
  rw [Bool.eq_iff_iff, beq_iff_eq, beq_iff_eq, Point.at.injEq, Int.mul_eq_zero]
  constructor
  · intro h
    exact h.resolve_right hplaces
  · intro h
    exact .inl h

theorem ofInt_zero : ofInt 0 = .at 0 := by
  unfold ofInt
  rw [Int.zero_mul]

theorem ofInt_lt_zero {n : Int} (h : n < 0) : (ofInt n).lt (.at 0) = true := by
  have hpos := one_pos
  unfold ofInt
  generalize one = places at hpos
  have hneg := Int.mul_neg_of_neg_of_pos h (Int.natCast_pos.2 hpos)
  exact decide_eq_true hneg

end Number.Point

namespace Scalar

def universal : Scalar → Scalar
  | moment m => moment m.universal
  | other => other

def Meets (a : Scalar) (op : Operator) (b : Scalar) : Prop :=
  ∃ order, a.universal.order? b.universal = some order ∧
    op.holds order.less order.equal order.greater = true

def isNegative : Scalar → Bool
  | int n => n < 0
  | _ => false

end Scalar

namespace Comparison

/-- Whether what a token demands under a key holds; an operator that is none does not. -/
def Holds (token key : String) (P : Comparison → Prop) : Prop :=
  ∃ found, split token key = .ok found ∧ ∀ c, found = some c → P c

def LengthHolds (c : Comparison) (length : Nat) : Prop :=
  ∃ limit, Literal.readInt c.literal = .ok limit ∧ c.op.holdsInt length limit = true

theorem lengthStop_eq_none {c : Comparison} {length : Except Fault Nat}
    (h : c.lengthStop length = none) : ∃ n, length = .ok n ∧ c.LengthHolds n := by
  unfold lengthStop at h
  cases hread : Literal.readInt c.literal with
  | error error => simp [hread] at h
  | ok limit =>
      cases length with
      | error fault => simp [hread] at h
      | ok n =>
          refine ⟨n, rfl, limit, hread, ?_⟩
          cases hholds : c.op.holdsInt n limit with
          | true => rfl
          | false => simp [hread, hholds] at h

end Comparison

namespace ScalarKind

def ValueHolds (kind : ScalarKind) (content : Scalar) (c : Comparison) : Prop :=
  kind.supports c.op = true ∧
    ∃ threshold, kind.read c.literal = .ok threshold ∧ content.Meets c.op threshold

def TextHolds (s token : String) : Prop :=
  Comparison.Holds token "len" (fun c => c.LengthHolds s.length) ∧
    (∀ text, Text.argument? patternFront token = some text →
      ∃ pattern, Pattern.parse text = .ok pattern ∧ pattern.occursIn s = true) ∧
    ∀ choices, Text.argument? choiceFront token = some choices → s ∈ Text.cutString '|' choices

/-- What rules demand of a scalar of a kind. -/
structure Satisfies (kind : ScalarKind) (content : Scalar) (rules : RuleSet) : Prop where
  nonzero : rules.required = true → content.isZero = false
  unsigned : kind = .uint → content.isNegative = false
  values : ∀ token ∈ rules.tokens, Comparison.Holds token "val" (kind.ValueHolds content)
  texts : kind = .text → ∀ s, content = .text s → ∀ token ∈ rules.tokens, TextHolds s token

def content? (kind : ScalarKind) : Value → Option Scalar
  | .null => some kind.zero
  | value => value.scalar?

variable {kind : ScalarKind} {origin : Origin} {content : Scalar}

theorem isZero_scalar (h : kind.Suits (.scalar origin content)) :
    kind.isZero (.scalar origin content) = .ok content.isZero := by
  obtain ⟨_, _, hvalue, hbase⟩ := h
  cases hvalue
  have hpoint : (Number.Binary64.zero false).point? = some (.at 0) := by decide +kernel
  have hzero := Number.Point.ofInt_zero
  cases kind <;> cases content <;> simp [Scalar.base, base] at hbase <;>
    simp [isZero, Value.same, Value.scalar?, Value.ofScalar, zero, Scalar.same, Scalar.order?,
      Scalar.point?, Scalar.isZero, Order.ofPoints, Order.ofTexts, Order.ofInts, hpoint,
      Number.Point.ofInt_beq_zero, hzero]
  case float.float x =>
    cases hx : x.point? <;> simp [Number.Binary64.isZero, hx, Order.unrelated]
  case bool.bool b => cases b <;> rfl

theorem checkStop_eq_none {rules : RuleSet} {value : Value} (h : kind.checkStop rules value = none) :
    kind.requiredStop rules value = none ∧ kind.signStop value = none ∧
      ∀ token ∈ rules.tokens, kind.tokenStop value token = none := by
  unfold checkStop at h
  cases hrequired : kind.requiredStop rules value with
  | some stop => simp [hrequired] at h
  | none =>
      cases hsign : kind.signStop value with
      | some stop => simp [hrequired, hsign] at h
      | none =>
          simp only [hrequired, hsign, Option.orElse_none, List.findSome?_eq_none_iff] at h
          exact ⟨rfl, rfl, h⟩

theorem comparable_of_suits (h : kind.Suits (.scalar origin content)) :
    ∃ own, kind.comparable (.scalar origin content) = .ok own ∧
      own.scalar? = some content.universal := by
  obtain ⟨_, _, hvalue, hbase⟩ := h
  cases hvalue
  cases kind <;> cases content <;> simp [Scalar.base, base] at hbase <;> exact ⟨_, rfl, rfl⟩

theorem comparableThreshold_of_base {threshold : Scalar} (h : threshold.base = kind.base) :
    kind.comparableThreshold threshold = threshold.universal := by
  cases kind <;> cases threshold <;> first | rfl | cases h

theorem meets_of_compare (hsuits : kind.Suits (.scalar origin content)) {threshold : Scalar}
    (hbase : threshold.base = kind.base) {op : Operator}
    (h : (kind.comparable (.scalar origin content)).bind (fun own =>
      own.compare op (kind.comparableThreshold threshold)) = .ok true) :
    content.Meets op threshold := by
  obtain ⟨own, hown, hcontent⟩ := comparable_of_suits hsuits
  obtain ⟨other, inner, order, hother, hinner, horder⟩ := order?_of_suits hsuits hbase
  rw [hown] at hother
  cases hother
  rw [hcontent] at hinner
  cases hinner
  have hcompare := horder
  rw [comparableThreshold_of_base hbase] at horder
  refine ⟨order, horder, ?_⟩
  simpa [hown, Except.bind, Value.compare, hcontent, hcompare] using h

theorem holds_of_valueStop (hsuits : kind.Suits (.scalar origin content)) {token : String}
    (h : kind.valueStop (.scalar origin content) token = none) :
    Comparison.Holds token "val" (kind.ValueHolds content) := by
  unfold valueStop Comparison.splitOrStop at h
  cases hsplit : Comparison.split token "val" with
  | error op => simp [hsplit] at h
  | ok found =>
      refine ⟨found, hsplit, ?_⟩
      rintro c rfl
      simp only [hsplit, compareStop] at h
      cases hsupports : kind.supports c.op with
      | false => simp [hsupports] at h
      | true =>
          simp only [hsupports, if_true] at h
          cases hread : kind.readOrStop c.literal c.token with
          | error stop => simp [hread] at h
          | ok threshold =>
              have hliteral := readOrStop_eq_ok.1 hread
              refine ⟨hsupports, threshold, hliteral,
                meets_of_compare hsuits (base_of_read hliteral) ?_⟩
              obtain ⟨holds, hholds⟩ := compare_of_suits hsuits (base_of_read hliteral) c.op
              cases holds with
              | true => exact hholds
              | false => simp [hread, hholds] at h

theorem patternStop_eq_none {s text : String}
    (h : patternStop (.scalar origin (.text s)) text = none) :
    ∃ pattern, Pattern.parse text = .ok pattern ∧ pattern.occursIn s = true := by
  unfold patternStop at h
  cases hparse : Pattern.parse text with
  | error failure => cases failure <;> simp [hparse] at h
  | ok pattern =>
      refine ⟨pattern, rfl, ?_⟩
      cases hoccurs : pattern.occursIn s with
      | true => rfl
      | false => simp [hparse, hoccurs] at h

theorem choiceStop_eq_none {s choices : String}
    (h : choiceStop (.scalar origin (.text s)) choices = none) : s ∈ Text.cutString '|' choices := by
  unfold choiceStop at h
  split at h
  · rename_i hany
    obtain ⟨choice, hchoice, hsame⟩ := List.any_eq_true.1 hany
    have heq : s = choice := by
      simpa [Value.same, Value.scalar?, Value.ofText, Scalar.same, Scalar.order?, Order.ofTexts]
        using hsame
    rwa [heq]
  · cases h

/-- A token on the length is neither a comparison of the text nor a pattern nor a list. -/
theorem textHolds_of_length {s token : String} {c : Comparison}
    (hlen : Comparison.split token "len" = .ok (some c)) (hholds : c.LengthHolds s.length) :
    Comparison.Holds token "val" (text.ValueHolds (.text s)) ∧ TextHolds s token := by
  obtain ⟨rest, hrest⟩ := after?_of_split hlen
  have hvalue : Comparison.split token "val" = .ok none :=
    split_eq_none (Text.after?_eq_none_of_disjoint hrest (by decide))
  have hpattern : Text.argument? patternFront token = none :=
    Text.argument?_eq_none_of_disjoint hrest (by decide)
  have hchoice : Text.argument? choiceFront token = none :=
    Text.argument?_eq_none_of_disjoint hrest (by decide)
  refine ⟨⟨none, hvalue, by simp⟩, ⟨some c, hlen, ?_⟩, by simp [hpattern], by simp [hchoice]⟩
  rintro _ ⟨⟩
  exact hholds

theorem textHolds_of_pattern {s token pattern : String}
    (hlen : Comparison.split token "len" = .ok none)
    (hpattern : Text.argument? patternFront token = some pattern)
    (h : patternStop (.scalar origin (.text s)) pattern = none) :
    Comparison.Holds token "val" (text.ValueHolds (.text s)) ∧ TextHolds s token := by
  have hrest := Text.after?_of_argument? hpattern
  have hvalue : Comparison.split token "val" = .ok none :=
    split_eq_none (Text.after?_eq_none_of_disjoint hrest (by decide))
  have hchoice : Text.argument? choiceFront token = none :=
    Text.argument?_eq_none_of_disjoint hrest (by decide)
  refine ⟨⟨none, hvalue, by simp⟩, ⟨none, hlen, by simp⟩, ?_, by simp [hchoice]⟩
  intro own hown
  rw [hpattern] at hown
  cases hown
  exact patternStop_eq_none h

theorem textHolds_of_choice {s token choices : String}
    (hlen : Comparison.split token "len" = .ok none)
    (hpattern : Text.argument? patternFront token = none)
    (hchoice : Text.argument? choiceFront token = some choices)
    (h : choiceStop (.scalar origin (.text s)) choices = none) :
    Comparison.Holds token "val" (text.ValueHolds (.text s)) ∧ TextHolds s token := by
  have hrest := Text.after?_of_argument? hchoice
  have hvalue : Comparison.split token "val" = .ok none :=
    split_eq_none (Text.after?_eq_none_of_disjoint hrest (by decide))
  refine ⟨⟨none, hvalue, by simp⟩, ⟨none, hlen, by simp⟩, by simp [hpattern], ?_⟩
  intro own hown
  rw [hchoice] at hown
  cases hown
  exact choiceStop_eq_none h

theorem holds_of_textStop {s token : String}
    (h : textStop (.scalar origin (.text s)) token = none) :
    Comparison.Holds token "val" (text.ValueHolds (.text s)) ∧ TextHolds s token := by
  have hsuits : text.Suits (.scalar origin (.text s)) := ⟨origin, .text s, rfl, .inl rfl⟩
  unfold textStop Comparison.splitOrStop at h
  cases hlen : Comparison.split token "len" with
  | error op => simp [hlen] at h
  | ok found =>
      cases found with
      | some c =>
          simp only [hlen] at h
          obtain ⟨n, hn, hholds⟩ := Comparison.lengthStop_eq_none h
          cases hn
          exact textHolds_of_length hlen hholds
      | none =>
          simp only [hlen] at h
          cases hpattern : Text.argument? patternFront token with
          | some pattern =>
              simp only [hpattern] at h
              exact textHolds_of_pattern hlen hpattern h
          | none =>
              simp only [hpattern] at h
              cases hchoice : Text.argument? choiceFront token with
              | some choices =>
                  simp only [hchoice] at h
                  exact textHolds_of_choice hlen hpattern hchoice h
              | none =>
                  simp only [hchoice] at h
                  have hvalue := holds_of_valueStop hsuits h
                  exact ⟨hvalue, ⟨none, hlen, by simp⟩, by simp [hpattern], by simp [hchoice]⟩

theorem satisfies_of_checkStop (hsuits : kind.Suits (.scalar origin content)) {rules : RuleSet}
    (h : kind.checkStop rules (.scalar origin content) = none) : kind.Satisfies content rules := by
  obtain ⟨hrequired, hsign, htokens⟩ := checkStop_eq_none h
  refine ⟨?_, ?_, ?_, ?_⟩
  · intro hasked
    have hzero := isZero_scalar hsuits
    cases hcontent : content.isZero with
    | false => rfl
    | true => simp [requiredStop, hasked, hzero, hcontent] at hrequired
  · rintro rfl
    cases content with
    | int n =>
        simp only [Scalar.isNegative, decide_eq_false_iff_not]
        intro hnegative
        have hless := Number.Point.ofInt_lt_zero hnegative
        have hzero := Number.Point.ofInt_zero
        simp [signStop, Value.compare, Value.scalar?, Scalar.order?, Scalar.point?, Order.ofPoints,
          Operator.holds, hzero, hless] at hsign
    | _ => rfl
  · intro token htoken
    by_cases hkind : kind = .text
    · subst hkind
      obtain ⟨_, _, hvalue, hbase⟩ := hsuits
      cases hvalue
      obtain ⟨s, rfl⟩ : ∃ s, content = .text s := by
        cases content <;> simp_all [Scalar.base, base]
      exact (holds_of_textStop (htokens token htoken)).1
    · have hstop : kind.valueStop (.scalar origin content) token = none := by
        have := htokens token htoken
        cases kind <;> first | exact this | exact absurd rfl hkind
      exact holds_of_valueStop hsuits hstop
  · rintro rfl s rfl token htoken
    exact (holds_of_textStop (htokens token htoken)).2

theorem Satisfies.of_universal {other : Scalar} {rules : RuleSet} (h : kind.Satisfies content rules)
    (huniversal : other.universal = content.universal) (hzero : other.isZero = content.isZero) :
    kind.Satisfies other rules where
  nonzero hasked := by rw [hzero, h.nonzero hasked]
  unsigned hkind := by
    have hnegative := h.unsigned hkind
    cases content <;> cases other <;> simp_all [Scalar.universal, Scalar.isNegative]
  values token htoken := by
    obtain ⟨found, hsplit, hholds⟩ := h.values token htoken
    refine ⟨found, hsplit, ?_⟩
    intro c hc
    obtain ⟨hsupports, threshold, hread, hmeets⟩ := hholds c hc
    refine ⟨hsupports, threshold, hread, ?_⟩
    unfold Scalar.Meets at hmeets ⊢
    rwa [huniversal]
  texts hkind s hs token htoken := by
    refine h.texts hkind s ?_ token htoken
    subst hs
    cases content <;> simp_all [Scalar.universal]

end ScalarKind

/-- Whether a missing moment may be checked as the first date of the calendar in another zone. -/
def RuleSet.ShiftsZero (rules : RuleSet) : Prop :=
  ∃ literal m, rules.default? = some literal ∧ Literal.readMoment literal = .ok m ∧
    m.isZero = true ∧ m.offset.getD 0 ≠ 0

namespace ScalarKind

variable {kind : ScalarKind} {rules : RuleSet} {held : Value} {settled : Settled}
  {folded default : Option Value}

theorem Settling.content_of_present (h : kind.Settling rules held settled folded default)
    (hnull : held.isNull = false) (hchanged : settled.changed = false) :
    settled.value.scalar? = held.scalar? := by
  have hfolded := folded?_eq_ok h.folding
  have hdefault := default?_eq_ok h.defaulting
  have hvalue := h.value_eq
  rw [h.changed_of_present hnull] at hchanged
  rw [start_of_present kind hnull] at hfolded hdefault hvalue
  cases hnew : default with
  | none =>
      rw [hnew] at hvalue hchanged
      rcases hfolded with ⟨rfl, -⟩ | ⟨origin, s, rfl, rfl, rfl⟩
      · exact congrArg Value.scalar? hvalue
      · have hsame : rules.foldText s = s := by
          simpa [Value.ofText, Value.same, Value.scalar?, Scalar.same, Scalar.order?, Order.ofTexts]
            using hchanged
        rw [hvalue]
        simp [Value.ofText, Value.scalar?, hsame]
  | some new =>
      obtain ⟨literal, content, -, -, hread, rfl, hother⟩ := hdefault new hnew
      rw [hnew] at hvalue hchanged
      simp only [Option.orElse_some, Option.any_some, Bool.not_eq_false'] at hchanged
      rcases hfolded with ⟨rfl, -⟩ | ⟨origin, s, rfl, rfl, rfl⟩
      · rw [Option.getD_none] at hother
        rw [hother] at hchanged
        cases hchanged
      · cases hread
        have hsame : literal = s := by
          simpa [Value.ofScalar, Value.same, Value.scalar?, Scalar.same, Scalar.order?,
            Order.ofTexts] using hchanged
        rw [hvalue, hsame]
        rfl

theorem isZero_eq_same (hkind : kind ≠ .timestamp) (value : Value) :
    kind.isZero value = .ok (value.same (.ofScalar kind.zero)) := by
  cases kind <;> first | rfl | exact absurd rfl hkind

theorem universal_of_isZero {m : Time.Moment} (hzero : m.isZero = true)
    (hoffset : m.offset.getD 0 = 0) : m.universal = Time.Moment.zero.universal := by
  obtain ⟨year, month, day, hour, minute, second, micro, offset⟩ := m
  simp only [Time.Moment.isZero, Time.Moment.bare, Time.Moment.zero, decide_eq_true_eq,
    Time.Moment.mk.injEq, and_true] at hzero
  simp only at hoffset
  simp [Time.Moment.universal, Time.Moment.zero, hzero, hoffset]

/-- What a missing value of a kind is folded to, if it is zero, is the zero of the kind. -/
theorem folded_of_null (hnull : held.isNull = true)
    (hfolded : kind.folded? rules (kind.start held) = .ok folded)
    (hzero : kind.isZero (folded.getD (kind.start held)) = .ok true) :
    folded.getD (kind.start held) = .ofScalar kind.zero := by
  have hstart : kind.start held = .ofScalar kind.zero := by simp [start, hnull]
  rcases folded?_eq_ok hfolded with ⟨rfl, -⟩ | ⟨origin, s, rfl, -, rfl⟩
  · exact hstart
  · have hempty : rules.foldText s = "" := by
      simpa [isZero, Value.ofText, Value.ofScalar, zero, Value.same, Value.scalar?, Scalar.same,
        Scalar.order?, Order.ofTexts] using hzero
    rw [Option.getD_some, hempty]
    rfl

/-- What was checked of a missing scalar that is left alone is as good as the zero of its kind. -/
theorem Settling.content_of_null (h : kind.Settling rules held settled folded default)
    (hnull : held.isNull = true) (hchanged : settled.changed = false)
    (hshift : kind = .timestamp → ¬ rules.ShiftsZero) :
    ∃ content, settled.value = .ofScalar content ∧
      kind.zero.universal = content.universal ∧ kind.zero.isZero = content.isZero := by
  have hzero : kind.isZero settled.value = .ok true := by
    rw [h.changed_of_null hnull, hchanged]
    rfl
  rw [h.value_eq] at hzero ⊢
  cases hnew : default with
  | none =>
      rw [hnew, Option.getD_none] at hzero
      exact ⟨kind.zero, folded_of_null hnull h.folding hzero, rfl, rfl⟩
  | some new =>
      obtain ⟨literal, content, hliteral, hbefore, hread, rfl, hother⟩ :=
        default?_eq_ok h.defaulting new hnew
      rw [folded_of_null hnull h.folding hbefore] at hother
      rw [hnew, Option.getD_some] at hzero
      refine ⟨content, rfl, ?_⟩
      by_cases hkind : kind = .timestamp
      · subst hkind
        obtain ⟨m, hmoment, rfl⟩ : ∃ m, Literal.readMoment literal = .ok m ∧ .moment m = content := by
          cases hmoment : Literal.readMoment literal with
          | error error => simp [read, hmoment, Except.map] at hread
          | ok m =>
              refine ⟨m, rfl, ?_⟩
              simpa [read, hmoment, Except.map] using hread
        have hfirst : m.isZero = true := by
          simpa [isZero, Value.ofScalar] using hzero
        have hoffset : m.offset.getD 0 = 0 := by
          by_cases hshifted : m.offset.getD 0 = 0
          · exact hshifted
          · exact absurd ⟨literal, m, hliteral, hmoment, hfirst, hshifted⟩ (hshift rfl)
        have huniversal := universal_of_isZero hfirst hoffset
        refine ⟨?_, ?_⟩
        · simp [zero, Scalar.universal, huniversal]
        · rw [Scalar.isZero, hfirst]
          rfl
      · rw [isZero_eq_same hkind, hother] at hzero
        cases hzero

/--
A visit to a scalar that passes leaves a value that satisfies the rules, unless a missing moment was
checked as the first date of the calendar in another zone.
-/
theorem satisfies_of_visit {writable : Bool} (hheld : held = .null ∨ kind.Suits held)
    (hshift : kind = .timestamp → ¬ rules.ShiftsZero)
    (hpass : (kind.visit writable held rules).stop = none) :
    ∃ content, kind.content? (kind.visit writable held rules).value = some content ∧
      kind.Satisfies content rules := by
  obtain ⟨settled, hsettle, hcheck, hleft⟩ := visit_passed hpass
  obtain ⟨folded, default, h⟩ := settle_eq_ok hsettle
  have hsuits := h.suits hheld
  obtain ⟨origin, content, hvalue, hbase⟩ := hsuits
  rw [hvalue] at hcheck
  have hsatisfies := satisfies_of_checkStop ⟨origin, content, rfl, hbase⟩ hcheck
  rcases hleft with ⟨hchanged, hfinal, -⟩ | ⟨-, -, hfinal, -⟩
  · rw [hfinal]
    rcases hheld with rfl | ⟨own, other, rfl, hother⟩
    · obtain ⟨zero, hzero, huniversal, hisZero⟩ := h.content_of_null rfl hchanged hshift
      rw [hvalue] at hzero
      cases hzero
      exact ⟨kind.zero, rfl, hsatisfies.of_universal huniversal hisZero⟩
    · have hsame := h.content_of_present rfl hchanged
      rw [hvalue] at hsame
      cases hsame
      exact ⟨content, rfl, hsatisfies⟩
  · rw [hfinal, hvalue]
    exact ⟨content, rfl, hsatisfies⟩

end ScalarKind

end RuleCheck
