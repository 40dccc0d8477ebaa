import RuleCheck.Proofs.Object.Visits
import RuleCheck.Proofs.Visit.Lengths

/-! # Values that differ only in hidden parts

A part of a value is given by the numbers of the parts to go into on the way to it: the number of an item, of an
entry, or of a slot.  Some of the parts may be hidden.  Two values are the same outside of them if they have the
same nodes down to the hidden parts; the keys of mappings are no parts and count as what a node is.
-/

namespace RuleCheck

/-- The hidden parts of a value. -/
abbrev Hidden := List Nat → Prop

def Hidden.below (hidden : Hidden) (path : List Nat) : Hidden :=
  fun inner => hidden (path ++ inner)

namespace Value

def part? : List Nat → Value → Option Value
  | [], value => some value
  | index :: path, value => value.children[index]?.bind (part? path)

def frameAt? (path : List Nat) (value : Value) : Option Frame :=
  (value.part? path).bind frame?

theorem part?_of_child {value child : Value} {index : Nat} (h : value.children[index]? = some child)
    (path : List Nat) : value.part? (index :: path) = child.part? path := by
  simp only [part?, h, Option.bind_some]

theorem frameAt?_of_child {value child : Value} {index : Nat} (h : value.children[index]? = some child)
    (path : List Nat) : value.frameAt? (index :: path) = child.frameAt? path := by
  simp only [frameAt?, part?_of_child h]

theorem part?_of_no_child {value : Value} {index : Nat} (h : value.children[index]? = none)
    (path : List Nat) : value.part? (index :: path) = none := by
  simp only [part?, h, Option.bind_none]

theorem frameAt?_of_no_child {value : Value} {index : Nat} (h : value.children[index]? = none)
    (path : List Nat) : value.frameAt? (index :: path) = none := by
  simp only [frameAt?, part?_of_no_child h, Option.bind_none]

/-! ## Being the same outside of hidden parts -/

/--
Whether two values are the same outside of hidden parts.  Members of sets are compared in the order in which they are
walked, which can be another one once hidden parts differ.
-/
inductive SameOutside : Hidden → Value → Value → Prop
  | hidden {hidden : Hidden} (h : hidden []) (value other : Value) : SameOutside hidden value other
  | atom {hidden : Hidden} {value : Value} (h : value.frame? = none) : SameOutside hidden value value
  | node {hidden : Hidden} {value other : Value} {frame : Frame} (hframe : value.frame? = some frame)
      (hother : other.frame? = some frame) (hlength : other.children.length = value.children.length)
      (h : ∀ (i : Nat) (own new : Value), value.children[i]? = some own → other.children[i]? = some new →
        SameOutside (hidden.below [i]) own new) : SameOutside hidden value other

/-- Two values of one frame and with as many parts differ at most in their parts. -/
structure SameNode (value other : Value) : Prop where
  alike : Alike other value
  classOf : other.classOf = value.classOf
  length : other.lengthOrFault = value.lengthOrFault
  isMutable : other.isMutable = value.isMutable
  isOversized : other.isOversized = value.isOversized
  isRebuilt : other.isRebuilt = value.isRebuilt
  itemsWritable : ∀ writable, other.itemsWritable writable = value.itemsWritable writable

theorem sameNode_of_frame {value other : Value} (hsame : other.frame? = value.frame?)
    (hframe : value.frame? ≠ none) (hlength : other.children.length = value.children.length) :
    SameNode value other := by
  cases value with
  | sequence kind derived items =>
      cases other with
      | sequence kind derived others =>
          cases hsame
          exact ⟨alike_sequence _ _ _ _ _, rfl, congrArg Except.ok hlength, rfl, rfl, by cases kind <;> rfl,
            by cases kind <;> exact fun _ => rfl⟩
      | _ => cases hsame
  | mapping kind derived entries =>
      cases other with
      | mapping kind derived others =>
          obtain ⟨rfl, rfl, -⟩ := Frame.mapping.inj (Option.some.inj hsame)
          have hsize : others.length = entries.length := by simpa only [children, List.length_map] using hlength
          exact ⟨alike_mapping _ _ _ _ _, by cases kind <;> rfl, congrArg Except.ok hsize, rfl, rfl, rfl,
            fun _ => rfl⟩
      | _ => cases hsame
  | box content =>
      cases other with
      | box => exact ⟨alike_box _ _, rfl, rfl, rfl, rfl, rfl, fun _ => rfl⟩
      | _ => cases hsame
  | record head slots =>
      cases other with
      | record head others =>
          obtain ⟨rfl, -⟩ := Frame.record.inj (Option.some.inj hsame)
          have hsize : others.length = slots.length := by simpa only [children, List.length_map] using hlength
          refine ⟨alike_record _ _ _, rfl, ?_, rfl, rfl, rfl, fun _ => rfl⟩
          simp only [lengthOrFault, isOversized, length?, hsize]
          rfl
      | _ => cases hsame
  | _ => exact absurd rfl hframe

theorem isNull_of_frame {value : Value} {frame : Frame} (h : value.frame? = some frame) :
    value.isNull = false := by
  cases value <;> first | rfl | cases h

theorem children_of_atom {value : Value} (h : value.frame? = none) : value.children = [] := by
  cases value <;> first | rfl | cases h

theorem items?_of_node {value : Value} {frame : Frame} {declared : Annotation}
    (hframe : value.frame? = some frame) (hcategory : (value.resolve declared).category = .list) :
    value.items? = some value.children := by
  rcases list_of_resolve (isNull_of_frame hframe) hcategory with
    ⟨kind, derived, items, rfl⟩ | ⟨start, stop, step, rfl⟩ | ⟨head, slots, rfl, htuple⟩
  · rfl
  · cases hframe
  · exact items?_of_isTuple htuple slots

/-- What is made of the items of such a node stands in a node like it, or in a plain tuple. -/
theorem rebuild_of_node {value : Value} {frame : Frame} {declared : Annotation}
    (hframe : value.frame? = some frame) (hcategory : (value.resolve declared).category = .list)
    (replaced : Bool) {items : List Value} (hlength : items.length = value.children.length) :
    (value.rebuild replaced items).children = items ∧ (value.rebuild replaced items).frame? =
      some (if replaced && value.isRebuilt then .sequence .tuple none else frame) := by
  unfold rebuild
  split
  · exact ⟨rfl, rfl⟩
  · rcases list_of_resolve (isNull_of_frame hframe) hcategory with
      ⟨kind, derived, olds, rfl⟩ | ⟨start, stop, step, rfl⟩ | ⟨head, slots, rfl, htuple⟩
    · exact ⟨rfl, hframe⟩
    · cases hframe
    · have hsize : items.length = slots.length := by simpa only [children, List.length_map] using hlength
      have hnames : (List.zipWith (fun slot item => (slot.1, item)) slots items).map Prod.fst =
          slots.map Prod.fst := Shaped.map_fst_zipWith (f := fun _ new => new) hsize
      simp only [withItems, htuple, if_true, children, frame?, hnames]
      exact ⟨map_snd_zipWith hsize, hframe⟩

theorem withEntries_of_node {kind : MappingKind} {derived : Option String} {entries : List (Value × Value)}
    {values : List Value} (hlength : values.length = entries.length) :
    ((mapping kind derived entries).withEntries values).frame? =
        some (.mapping kind derived (entries.map Prod.fst)) ∧
      ((mapping kind derived entries).withEntries values).children = values := by
  have hkeys : (List.zipWith (fun entry new => (entry.1, new)) entries values).map Prod.fst =
      entries.map Prod.fst := Shaped.map_fst_zipWith (f := fun _ new => new) hlength
  exact ⟨by simp only [withEntries, frame?, hkeys], map_snd_zipWith hlength⟩

theorem frame?_withField (value : Value) (name : String) (new : Value) :
    (value.withField name new).frame? = value.frame? := by
  cases value with
  | record head slots =>
      have hnames : (putSlot name new slots).map Prod.fst = slots.map Prod.fst := by
        induction slots with
        | nil => rfl
        | cons slot slots ih => cases hown : slot.1 == name <;> simp [putSlot, hown, ih]
      simp only [withField, frame?, hnames]
  | _ => rfl

/-- A list in which one element was exchanged has this one there, and the old ones elsewhere. -/
theorem getElem?_of_set {list : List Value} {index i : Nat} {new part : Value}
    (h : (list.set index new)[i]? = some part) :
    (i = index ∧ part = new) ∨ (i ≠ index ∧ list[i]? = some part) := by
  rw [List.getElem?_set] at h
  split at h
  · rename_i hsame
    split at h
    · cases h
      exact .inl ⟨hsame.symm, rfl⟩
    · cases h
  · rename_i hother
    exact .inr ⟨Ne.symm hother, h⟩

namespace SameOutside

variable {hidden : Hidden} {value other : Value}

theorem refl (hidden : Hidden) (value : Value) : SameOutside hidden value value := by
  cases hframe : value.frame? with
  | none => exact .atom hframe
  | some frame =>
      refine .node hframe hframe rfl fun i own new hown hnew => ?_
      have hsame : own = new := Option.some.inj (hown.symm.trans hnew)
      have hlt := depth_lt_of_child (List.mem_of_getElem? hown)
      rw [← hsame]
      exact refl (hidden.below [i]) own
termination_by value.depth

theorem frame_eq (h : SameOutside hidden value other) (hshown : ¬hidden []) :
    other.frame? = value.frame? := by
  cases h with
  | hidden hroot => exact absurd hroot hshown
  | atom => rfl
  | node hframe hother => rw [hframe, hother]

theorem length_eq (h : SameOutside hidden value other) (hshown : ¬hidden []) :
    other.children.length = value.children.length := by
  cases h with
  | hidden hroot => exact absurd hroot hshown
  | atom => rfl
  | node _ _ hlength => exact hlength

theorem child (h : SameOutside hidden value other) (hshown : ¬hidden []) {index : Nat} {own new : Value}
    (hown : value.children[index]? = some own) (hnew : other.children[index]? = some new) :
    SameOutside (hidden.below [index]) own new := by
  cases h with
  | hidden hroot => exact absurd hroot hshown
  | atom hframe =>
      rw [children_of_atom hframe] at hown
      cases hown
  | node _ _ _ heach => exact heach index own new hown hnew

theorem eq_of_atom (h : SameOutside hidden value other) (hshown : ¬hidden []) (hframe : value.frame? = none) :
    other = value := by
  cases h with
  | hidden hroot => exact absurd hroot hshown
  | atom => rfl
  | node hown => cases hframe.symm.trans hown

/-- Values that are the same outside of hidden parts are nodes of one kind, unless they are hidden themselves. -/
theorem sameNode (h : SameOutside hidden value other) (hshown : ¬hidden []) : SameNode value other := by
  cases hframe : value.frame? with
  | none =>
      rw [h.eq_of_atom hshown hframe]
      exact ⟨.refl value, rfl, rfl, rfl, rfl, rfl, fun _ => rfl⟩
  | some frame =>
      exact sameNode_of_frame (h.frame_eq hshown) (by simp [hframe]) (h.length_eq hshown)

/-- What is left of two old objects is the same outside of hidden parts if the old and the new values are. -/
theorem graft {last new : Value} (h : SameOutside hidden value other) (hnew : SameOutside hidden last new)
    (hlast : Congruent value last) (hcongruent : Congruent other new) :
    SameOutside hidden (value.graft last) (other.graft new) := by
  induction h generalizing last new with
  | hidden hroot => exact .hidden hroot _ _
  | atom hframe =>
      rw [graft_of_atom hframe, graft_of_atom hframe]
      exact .atom hframe
  | @node hidden value other frame hframe hother hlength _ ih =>
      cases hfixed : frame.isMutable with
      | true =>
          rw [graft_of_isMutable ((isMutable_of_frame hframe).trans hfixed),
            graft_of_isMutable ((isMutable_of_frame hother).trans hfixed)]
          exact hnew
      | false =>
          cases hlast with
          | atom hatom => cases hatom.symm.trans hframe
          | node hvalue _ _ hlasts hown =>
              cases hcongruent with
              | atom hatom => cases hatom.symm.trans hother
              | node _ _ _ hnews hothers =>
                  obtain ⟨hleft, hlefts⟩ := graft_of_node hframe hfixed hlasts
                  obtain ⟨hright, hrights⟩ := graft_of_node hother hfixed hnews
                  by_cases hroot : hidden []
                  · exact .hidden hroot _ _
                  refine .node hleft hright (by simp [hlefts, hrights, hlength, hlasts, hnews]) ?_
                  intro i own part hown' hpart
                  rw [hlefts, List.getElem?_zipWith_eq_some] at hown'
                  rw [hrights, List.getElem?_zipWith_eq_some] at hpart
                  obtain ⟨old, made, hold, hmade, rfl⟩ := hown'
                  obtain ⟨old', made', hold', hmade', rfl⟩ := hpart
                  exact ih i old old' hold hold' (hnew.child hroot hmade hmade')
                    (hown i old made hold hmade) (hothers i old' made' hold' hmade')

end SameOutside

/-! ## Keeping hidden parts -/

/-- Whether all hidden parts are the same in a value that another one was made into, each in a node of its frame. -/
def Keeps (hidden : Hidden) (value new : Value) : Prop :=
  ∀ path index, hidden (path ++ [index]) →
    new.frameAt? path = value.frameAt? path ∧ new.part? (path ++ [index]) = value.part? (path ++ [index])

namespace Keeps

variable {hidden : Hidden} {value new last : Value}

theorem refl (hidden : Hidden) (value : Value) : Keeps hidden value value :=
  fun _ _ _ => ⟨rfl, rfl⟩

theorem trans (h : Keeps hidden value new) (hlast : Keeps hidden new last) : Keeps hidden value last :=
  fun path index hpart =>
    ⟨(hlast path index hpart).1.trans (h path index hpart).1,
      (hlast path index hpart).2.trans (h path index hpart).2⟩

theorem below (h : Keeps hidden value new) {index : Nat} {own part : Value}
    (hown : value.children[index]? = some own) (hpart : new.children[index]? = some part) :
    Keeps (hidden.below [index]) own part := by
  intro path inner hinner
  have hkept := h (index :: path) inner hinner
  rw [frameAt?_of_child hown, frameAt?_of_child hpart, List.cons_append, part?_of_child hown,
    part?_of_child hpart] at hkept
  exact hkept

/-- Hidden parts are kept if those among the children are, and those inside of each child. -/
theorem of_children (hlength : new.children.length = value.children.length)
    (hown : ∀ index, hidden [index] →
      new.frame? = value.frame? ∧ new.children[index]? = value.children[index]?)
    (h : ∀ (i : Nat) (own part : Value), value.children[i]? = some own → new.children[i]? = some part →
      Keeps (hidden.below [i]) own part) : Keeps hidden value new := by
  rintro (_ | ⟨first, path⟩) index hpart
  · obtain ⟨hframe, hchild⟩ := hown index hpart
    exact ⟨hframe, by simp only [List.nil_append, part?, hchild]⟩
  · cases hold : value.children[first]? with
    | none =>
        have hnone : new.children[first]? = none := by
          rw [List.getElem?_eq_none_iff] at hold ⊢
          omega
        exact ⟨by rw [frameAt?_of_no_child hold, frameAt?_of_no_child hnone],
          by rw [List.cons_append, part?_of_no_child hold, part?_of_no_child hnone]⟩
    | some own =>
        obtain ⟨part, hnew⟩ := Shaped.exists_getElem? hlength hold
        have hkept := h first own part hold hnew path index hpart
        rwa [frameAt?_of_child hold, frameAt?_of_child hnew, List.cons_append, part?_of_child hold,
          part?_of_child hnew]

theorem of_set (hframe : new.frame? = value.frame?) {index : Nat} {own part : Value}
    (hno : ¬hidden [index]) (hown : value.children[index]? = some own)
    (hchildren : new.children = value.children.set index part) (h : Keeps (hidden.below [index]) own part) :
    Keeps hidden value new := by
  refine of_children (by rw [hchildren, List.length_set]) (fun i hpart => ⟨hframe, ?_⟩) ?_
  · have hother : index ≠ i := by
      rintro rfl
      exact hno hpart
    rw [hchildren, List.getElem?_set_ne hother]
  · intro i old made hold hmade
    rw [hchildren] at hmade
    rcases getElem?_of_set hmade with ⟨rfl, rfl⟩ | ⟨-, hmade⟩
    · cases hown.symm.trans hold
      exact h
    · cases hold.symm.trans hmade
      exact .refl _ old

/-- What is left of an old object keeps the hidden parts that the new value keeps. -/
theorem graft (h : Keeps hidden value new) (hcongruent : Congruent value new) :
    Keeps hidden value (value.graft new) := by
  induction hcongruent generalizing hidden with
  | atom hframe =>
      rw [graft_of_atom hframe]
      exact .refl hidden _
  | @node value new frame newFrame hframe hnewFrame hmutable hlength _ ih =>
      cases hfixed : frame.isMutable with
      | true =>
          rw [graft_of_isMutable ((isMutable_of_frame hframe).trans hfixed)]
          exact h
      | false =>
          obtain ⟨hleft, hlefts⟩ := graft_of_node hframe hfixed hlength
          refine of_children (by simp [hlefts, hlength]) (fun index hpart => ⟨hleft.trans hframe.symm, ?_⟩) ?_
          · have hsame := (h [] index hpart).2
            simp only [List.nil_append, part?, Option.bind_fun_some] at hsame
            rw [hlefts, List.getElem?_zipWith, hsame]
            cases value.children[index]? with
            | none => rfl
            | some own => simp [graft_self]
          · intro i own part hown hpart
            rw [hlefts, List.getElem?_zipWith_eq_some] at hpart
            obtain ⟨old, made, hold, hmade, rfl⟩ := hpart
            cases hown.symm.trans hold
            exact ih i own made hown hmade (h.below hown hmade)

end Keeps

end Value

end RuleCheck
