import RuleCheck.Category
import RuleCheck.ScalarKind

/-! # How annotations act on values

An annotation settles the category of a value in one of two ways: it makes every value optional, or it
declares a category that holds of the values that fit it.  From this it follows which writes leave the
category of a place as it was.
-/

namespace RuleCheck

open Annotation (size unite)

namespace ScalarKind

def base : ScalarKind → BuiltIn
  | text => .text
  | int => .int
  | uint => .int
  | float => .float
  | bool => .bool
  | duration => .duration
  | timestamp => .moment

theorem base_zero (kind : ScalarKind) : kind.zero.base = kind.base := by
  cases kind <;> rfl

theorem base_of_read {kind : ScalarKind} {literal : String} {content : Scalar}
    (h : kind.read literal = .ok content) : content.base = kind.base := by
  cases kind <;> simp only [read, Except.map] at h
  case text => cases h; rfl
  all_goals
    split at h
    · cases h
    · cases h; rfl

end ScalarKind

namespace Annotation

theorem listSize_append (list others : List Annotation) :
    listSize (list ++ others) = listSize list + listSize others := by
  induction list with
  | nil => simp [listSize]
  | cons a list ih => simp [listSize, ih, Nat.add_assoc]

theorem listSize_filter_le (p : Annotation → Bool) (list : List Annotation) :
    listSize (list.filter p) ≤ listSize list := by
  induction list with
  | nil => simp
  | cons a list ih =>
      simp only [List.filter_cons, listSize]
      split
      · simp only [listSize]; omega
      · omega

/-- A filter that drops something makes a list smaller. -/
theorem listSize_filter_lt {p : Annotation → Bool} {list : List Annotation}
    (h : (list.filter p).length ≠ list.length) : listSize (list.filter p) < listSize list := by
  induction list with
  | nil => simp at h
  | cons a list ih =>
      simp only [List.filter_cons, listSize] at h ⊢
      split
      · rename_i hp
        simp only [hp, if_true, List.length_cons, ne_eq, Nat.add_right_cancel_iff] at h
        have := ih h
        simp only [listSize]
        omega
      · have := listSize_filter_le p list
        have := size_pos a
        omega

theorem listSize_members_le (a : Annotation) : listSize a.members ≤ a.size := by
  cases a <;> simp [members, size, listSize]

theorem listSize_flatMap_members_le (list : List Annotation) :
    listSize (list.flatMap members) ≤ listSize list := by
  induction list with
  | nil => simp
  | cons a list ih =>
      have := listSize_members_le a
      simp only [List.flatMap_cons, listSize_append, listSize]
      omega

private theorem listSize_dropRepeated_foldl_le (list kept : List Annotation) :
    listSize (list.foldl (fun kept a => if kept.any (same a) then kept else kept ++ [a]) kept) ≤
      listSize kept + listSize list := by
  induction list generalizing kept with
  | nil => simp [listSize]
  | cons a list ih =>
      simp only [List.foldl_cons, listSize]
      split
      · have := ih kept
        omega
      · have := ih (kept ++ [a])
        simp only [listSize_append, listSize] at this
        omega

theorem size_unite_le (list : List Annotation) : (unite list).size ≤ listSize list + 1 := by
  have hflat := listSize_flatMap_members_le list
  have hdrop : listSize (dropRepeated (list.flatMap members)) ≤ listSize (list.flatMap members) := by
    simpa [dropRepeated, listSize] using listSize_dropRepeated_foldl_le (list.flatMap members) []
  unfold unite
  split
  · rename_i single hsingle
    rw [hsingle] at hdrop
    simp only [listSize] at hdrop
    omega
  · simp only [size]
    omega

theorem size_annotate_le (inner : Annotation) (markers : List Marker) :
    (inner.annotate markers).size ≤ inner.size + 1 := by
  cases inner <;> simp [annotate, size]

theorem size_le_listSize {a : Annotation} {list : List Annotation} (h : a ∈ list) :
    a.size ≤ listSize list := by
  induction list with
  | nil => simp at h
  | cons b list ih =>
      rcases List.mem_cons.1 h with rfl | h
      · simp [listSize]
      · have := ih h
        simp only [listSize]
        omega

end Annotation

namespace Resolved

/-- What is declared of the things inside has at most so many parts. -/
structure Bounded (resolved : Resolved) (n : Nat) : Prop where
  element : resolved.element.size ≤ n
  items : ∀ items, resolved.items = some items → ∀ item ∈ items, item.size ≤ n

theorem Bounded.item {resolved : Resolved} {n : Nat} (h : resolved.Bounded n) (hn : 1 ≤ n)
    (index : Nat) : (resolved.item index).size ≤ n := by
  unfold Resolved.item
  split
  · rename_i items hitems
    rw [List.getD_eq_getElem?_getD]
    cases hitem : items[index]? with
    | none => simpa [size] using hn
    | some item => exact h.items items hitems item (List.mem_of_getElem? hitem)
  · exact h.element

theorem bounded_ofCategory (category : Category) {n : Nat} (hn : 1 ≤ n) :
    (ofCategory category).Bounded n :=
  ⟨by simpa [ofCategory, Annotation.size] using hn, by simp [ofCategory]⟩

theorem bounded_ofElement (category : Category) {element : Annotation} {n : Nat}
    (h : element.size ≤ n) : (ofElement category element).Bounded n :=
  ⟨h, by simp [ofElement]⟩

end Resolved

namespace Arguments

/-- The annotations that a class is applied to have at most so many parts. -/
def Bounded (arguments : Arguments) (n : Nat) : Prop :=
  match arguments with
  | fixed list => ∀ a ∈ list, a.size ≤ n
  | repeated item => item.size ≤ n

theorem Bounded.first {arguments : Arguments} {n : Nat} (h : arguments.Bounded n) (hn : 1 ≤ n) :
    arguments.first.size ≤ n := by
  unfold Arguments.first
  split
  · exact h _ (by simp)
  · simpa [size] using hn
  · exact h

theorem Bounded.second {arguments : Arguments} {n : Nat} (h : arguments.Bounded n) (hn : 1 ≤ n) :
    arguments.second.size ≤ n := by
  unfold Arguments.second
  split
  · exact h _ (by simp)
  · simpa [size] using hn

end Arguments

namespace Class

theorem bounded_classify (base : Class) {arguments : Arguments} {n : Nat} (unsigned : Bool)
    (h : arguments.Bounded n) (hn : 1 ≤ n) : (base.classify arguments unsigned).Bounded n := by
  have hbuiltIn : ∀ own : BuiltIn, (classifyBuiltIn own arguments unsigned).Bounded n := by
    intro own
    cases own <;> simp only [classifyBuiltIn]
    case tuple =>
      split
      · exact Resolved.bounded_ofElement _ h
      · exact Resolved.bounded_ofCategory _ hn
      · refine ⟨by simpa [size] using hn, ?_⟩
        rintro items ⟨⟩
        exact h
    all_goals first
      | exact Resolved.bounded_ofCategory _ hn
      | exact Resolved.bounded_ofElement _ (h.first hn)
      | exact Resolved.bounded_ofElement _ (h.second hn)
  unfold classify
  split
  · exact Resolved.bounded_ofCategory _ hn
  · split
    · exact hbuiltIn _
    · exact Resolved.bounded_ofCategory _ hn

theorem category_classify_ne_optional (base : Class) (arguments : Arguments) (unsigned : Bool) :
    (base.classify arguments unsigned).category ≠ .optional := by
  have hbuiltIn : ∀ own : BuiltIn, (classifyBuiltIn own arguments unsigned).category ≠ .optional := by
    intro own
    cases own <;> simp only [classifyBuiltIn, Resolved.ofCategory, Resolved.ofElement, ne_eq,
      reduceCtorEq, not_false_eq_true]
    case int => cases unsigned <;> simp
    case tuple => split <;> simp
  unfold classify
  split
  · simp [Resolved.ofCategory]
  · split
    · exact hbuiltIn _
    · simp [Resolved.ofCategory]

end Class

namespace Value

theorem settle_unsupported (value : Value) :
    value.settle (.ofCategory .unsupported) = value.category := by
  simp [settle, Resolved.ofCategory]

/-- What an annotation does to all values: it declares a category, or it makes them optional. -/
inductive Action (act : Value → Resolved) (n : Nat) : Prop
  | declares (declared : Resolved) (hne : declared.category ≠ .optional)
      (hbound : declared.Bounded n) (h : ∀ value, act value = value.settle declared)
  | optional (inner : Annotation) (hsize : inner.size < n)
      (h : ∀ value, act value = .ofElement .optional inner)

private theorem Action.runtime {n : Nat} (hn : 1 ≤ n) : Action Value.category n :=
  .declares (.ofCategory .unsupported) (by simp [Resolved.ofCategory])
    (Resolved.bounded_ofCategory _ hn) fun value => value.settle_unsupported.symm

private theorem Action.mono {act : Value → Resolved} {m n : Nat} (h : Action act m) (hmn : m ≤ n) :
    Action act n := by
  cases h with
  | declares declared hne hbound h =>
      refine .declares declared hne ⟨Nat.le_trans hbound.element hmn, ?_⟩ h
      exact fun items hitems item hitem => Nat.le_trans (hbound.items items hitems item hitem) hmn
  | optional inner hsize h => exact .optional inner (Nat.lt_of_lt_of_le hsize hmn) h

/-- With an outer layer that may have said so, integers are unsigned; the layer counts as a part. -/
theorem resolveAs_action (unsigned : Bool) (declared : Annotation) :
    Action (fun value => value.resolveAs unsigned declared)
      (declared.size + if unsigned then 1 else 0) := by
  have hone : 1 ≤ declared.size + if unsigned then 1 else 0 := by
    have := declared.size_pos
    omega
  match declared with
  | .absent | .any | .forward _ | .variable _ | .literal _ =>
      simpa only [resolveAs] using Action.runtime hone
  | .annotated inner markers =>
      simp only [resolveAs]
      refine (resolveAs_action _ inner).mono ?_
      simp only [size]
      split <;> omega
  | .newType name inner =>
      simp only [resolveAs]
      refine (resolveAs_action _ inner).mono ?_
      simp only [size]
      omega
  | .union members =>
      simp only [resolveAs]
      split
      · exact Action.runtime hone
      · rename_i hpresent
        have hlt := Annotation.listSize_filter_lt hpresent
        have hunite := Annotation.size_unite_le (members.filter fun member => !member.isNull)
        refine .optional _ ?_ fun _ => rfl
        have hmark := Annotation.size_annotate_le
          (unite (members.filter fun member => !member.isNull)) [.unsigned]
        simp only [size]
        split <;> omega
  | .bare base =>
      refine .declares _ (base.category_classify_ne_optional .none unsigned)
        (base.bounded_classify unsigned ?_ hone) fun _ => rfl
      simp [Arguments.none, Arguments.Bounded]
  | .applied base arguments =>
      refine .declares _ (base.category_classify_ne_optional (.fixed arguments) unsigned)
        (base.bounded_classify unsigned ?_ hone) fun _ => rfl
      intro a ha
      have := Annotation.size_le_listSize ha
      simp only [size]
      omega
  | .tupleOf item =>
      refine .declares _ (Class.category_classify_ne_optional _ (.repeated item) unsigned)
        (Class.bounded_classify _ unsigned ?_ hone) fun _ => rfl
      simp only [Arguments.Bounded, Annotation.size]
      omega

theorem resolve_action (declared : Annotation) :
    Action (fun value => value.resolve declared) declared.size := by
  simpa [resolve] using resolveAs_action false declared

end Value

end RuleCheck
