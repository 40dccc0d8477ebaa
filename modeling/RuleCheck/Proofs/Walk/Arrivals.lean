import RuleCheck.Proofs.Value.Outside
import RuleCheck.Proofs.Walk.SpotVisits

/-! # Where visits arrive

The visits of a walk arrive at parts of its value, each of them with rules.  A walk has no part in what is hidden
if all of it are fields that their own rules exclude, and if the rules that arrive at their records do not come
to them either: by naming them, by asking the record for anything other than zero, or by going through it as a list.
-/

namespace RuleCheck

def Turn.numbers (value : Value) : Turn → List Nat
  | .present => []
  | .content => [0]
  | .item index | .entry index => [index]
  | .field name => (value.frame?.bind (Frame.fieldIndex? name)).toList

/-- Whether the rules of a place have no part in the fields that are hidden of the record there. -/
structure Place.Discreet (hidden : Hidden) (place : Place) : Prop where
  /-- No record is asked for anything other than zero. -/
  required : place.resolved.category = .record → ∀ head names,
    place.value.frame? = some (.record head names) → place.rules.required = false
  /-- No rules are redirected to a hidden field. -/
  targets : place.resolved.category = .record → ∀ name ∈ place.rules.targets, ∀ index,
    place.value.frame?.bind (Frame.fieldIndex? name) = some index → ¬hidden [index]
  /-- No record with hidden fields is gone through as a list. -/
  items : place.resolved.category = .list → ∀ index, ¬hidden [index]

namespace RecordStep

theorem included_of_mem_all {tokenize : String → RuleSet} {fields : List Field} {rules own : RuleSet}
    {field : Field} (h : .descend field own ∈ all tokenize fields rules) :
    field.name ∈ rules.targets ∨ (tokenize field.rules).excluded = false := by
  simp only [all, List.mem_append, List.mem_flatMap, List.mem_cons, reduceCtorEq, false_or] at h
  rcases h with ⟨name, hname, h⟩ | ⟨declared, -, h⟩
  · simp only [ofTarget, List.mem_cons, reduceCtorEq, false_or, List.not_mem_nil, or_false] at h
    split at h
    · rename_i found hfound
      cases h
      obtain rfl : field.name = name := by simpa using List.find?_some hfound
      exact .inl hname
    · cases h
  · simp only [ofField, List.mem_cons, reduceCtorEq, false_or] at h
    split at h
    · cases h
    · rename_i hincluded
      have hsame : field = declared := by
        split at h <;> simp only [List.mem_cons, descend.injEq, List.not_mem_nil, or_false] at h
        · rcases h with ⟨rfl, -⟩ | ⟨rfl, -⟩ <;> rfl
        · exact h.1
      rw [hsame]
      exact .inr (by simpa using hincluded)

end RecordStep

namespace Walk

/-- The visits of a walk, each with the path to the part that it arrives at. -/
inductive Arrives (walk : Walk) : Nat → Place → List Nat → Place → Prop
  | here (levels : Nat) (place : Place) : Arrives walk levels place [] place
  | inside {levels : Nat} {place next last : Place} {turn : Turn} {path : List Nat}
      (hnext : next ∈ walk.placesAt levels place turn) (hrest : Arrives walk levels next path last) :
      Arrives walk (levels + 1) place (turn.numbers place.value ++ path) last

/-- Whether a field of a record type is excluded by its own rules. -/
def Excludes (walk : Walk) (head : RecordHead) (name : String) : Prop :=
  ∃ view, walk.view? (.record head) = some view ∧
    ∃ field ∈ view.fields, field.name = name ∧ (walk.tokenize field.rules).excluded = true

/-- Whether all hidden parts of a value are excluded fields of records in it. -/
def HidesExcluded (walk : Walk) (hidden : Hidden) (value : Value) : Prop :=
  ∀ path index, hidden (path ++ [index]) → ∃ head names name,
    value.frameAt? path = some (.record head names) ∧ names[index]? = some name ∧ walk.Excludes head name

/-- Whether wherever visits arrive, their rules have no part in hidden fields. -/
def Discreet (walk : Walk) (levels : Nat) (place : Place) (hidden : Hidden) : Prop :=
  ∀ path last, walk.Arrives levels place path last → last.Discreet (hidden.below path)

variable {walk : Walk} {levels : Nat} {place next last : Place} {hidden : Hidden}

theorem frame?_step (typeName : String) (writable : Bool) (record : Value) (step : RecordStep) :
    (Visit.step (walk.visit levels) walk.tagKey typeName writable record step).value.frame? = record.frame? := by
  cases step with
  | descend field rules =>
      simp only [Visit.step, Visit.field]
      split
      · rfl
      · exact Value.frame?_withField record field.name _
  | _ => rfl

theorem index_of_mem_fieldPlaces {typeName name : String} {writable : Bool} {plan : List RecordStep}
    {record : Value} (h : next ∈ walk.fieldPlaces levels typeName writable name plan record) :
    ∃ index, record.frame?.bind (Frame.fieldIndex? name) = some index := by
  induction plan generalizing record with
  | nil => cases h
  | cons step plan ih =>
      rcases mem_fieldPlaces_cons.1 h with ⟨hgoes, hfirst⟩ | ⟨-, hlater⟩
      · cases step with
        | descend field rules =>
            obtain rfl : field.name = name := beq_iff_eq.1 hgoes
            obtain ⟨content, hcontent, -⟩ := Option.map_eq_some_iff.1 hfirst
            cases hframe : record.frame? with
            | none =>
                rw [Value.fieldContent?_of_atom hframe] at hcontent
                cases hcontent
            | some frame =>
                rw [Value.fieldContent?_of_node hframe, Option.bind_eq_some_iff] at hcontent
                obtain ⟨index, hindex, -⟩ := hcontent
                exact ⟨index, hindex⟩
        | readFields | readRules | unknown => cases hfirst
      · obtain ⟨index, hindex⟩ := ih hlater
        exact ⟨index, by rwa [frame?_step] at hindex⟩

/-- Every turn that a visit takes goes into a part, unless it stays with the value below an optional layer. -/
theorem numbers_of_mem_placesAt {turn : Turn} (h : next ∈ walk.placesAt levels place turn) :
    turn = .present ∨ ∃ index, turn.numbers place.value = [index] := by
  cases turn with
  | present => exact .inl rfl
  | content | item | entry => exact .inr ⟨_, rfl⟩
  | field name =>
      unfold placesAt at h
      split at h
      case h_5 =>
        rename_i hturn
        cases hturn
        split at h
        · obtain ⟨index, hindex⟩ := index_of_mem_fieldPlaces h
          exact .inr ⟨index, by simp only [Turn.numbers, hindex, Option.toList_some]⟩
        · cases h
      case h_6 => cases h
      all_goals
        rename_i hturn
        cases hturn

namespace Arrives

theorem comesTo {path : List Nat} (h : walk.Arrives levels place path last) :
    ∃ rest, walk.ComesTo levels place rest last := by
  induction h with
  | here levels place => exact ⟨levels, .here _ _⟩
  | inside hnext _ ih =>
      obtain ⟨rest, hrest⟩ := ih
      exact ⟨rest, .inside (mem_placesBelow hnext) hrest⟩

/-- What arrives at the value itself, be it below optional layers, has the value and the rules of the first place. -/
theorem of_nil (h : walk.Arrives levels place [] last) : last.value = place.value ∧ last.rules = place.rules := by
  generalize hpath : ([] : List Nat) = path at h
  induction h with
  | here => exact ⟨rfl, rfl⟩
  | @inside levels place next last turn path hnext _ ih =>
      rcases numbers_of_mem_placesAt hnext with rfl | ⟨index, hindex⟩
      · obtain rfl : path = [] := hpath.symm
        have hlayer : next ∈ place.present := by
          unfold placesAt at hnext
          split at hnext
          case h_1 => exact hnext
          case h_6 => cases hnext
          all_goals
            rename_i hturn
            cases hturn
        obtain ⟨-, rfl⟩ := Place.mem_present.1 hlayer
        exact ih rfl
      · rw [hindex] at hpath
        cases hpath

end Arrives

theorem Discreet.own (h : walk.Discreet levels place hidden) : place.Discreet hidden :=
  h [] place (.here levels place)

theorem Discreet.inside (h : walk.Discreet (levels + 1) place hidden) {turn : Turn}
    (hnext : next ∈ walk.placesAt levels place turn) :
    walk.Discreet levels next (hidden.below (turn.numbers place.value)) := by
  intro path last harrives
  have hlast := h _ last (.inside hnext harrives)
  have hsame : hidden.below (turn.numbers place.value ++ path) =
      (hidden.below (turn.numbers place.value)).below path := by
    funext inner
    simp only [Hidden.below, List.append_assoc]
  rwa [hsame] at hlast

namespace HidesExcluded

variable {value new child : Value}

theorem below (h : walk.HidesExcluded hidden value) {index : Nat} (hchild : value.children[index]? = some child) :
    walk.HidesExcluded (hidden.below [index]) child := by
  intro path inner hinner
  have hown := h (index :: path) inner hinner
  rwa [Value.frameAt?_of_child hchild] at hown

/-- Where hidden parts are kept, they are the same fields. -/
theorem keeps (h : walk.HidesExcluded hidden value) (hkeeps : value.Keeps hidden new) :
    walk.HidesExcluded hidden new := by
  intro path index hpart
  rw [(hkeeps path index hpart).1]
  exact h path index hpart

theorem frame_eq (h : walk.HidesExcluded hidden value) {index : Nat} (hpart : hidden [index]) :
    ∃ head names name, value.frame? = some (.record head names) ∧ names[index]? = some name ∧
      walk.Excludes head name :=
  h [] index hpart

theorem shown {frame : Frame} (h : walk.HidesExcluded hidden value) (hframe : value.frame? = some frame)
    (hother : ∀ head names, frame ≠ .record head names) (index : Nat) : ¬hidden [index] := by
  intro hpart
  obtain ⟨head, names, -, hrecord, -⟩ := h.frame_eq hpart
  exact hother head names (Option.some.inj (hframe.symm.trans hrecord))

/-- A value without parts keeps the hidden ones, whatever becomes of it. -/
theorem keeps_of_atom (h : walk.HidesExcluded hidden value) (hatom : value.frame? = none) :
    value.Keeps hidden new := by
  rintro (_ | ⟨first, path⟩) index hpart
  · obtain ⟨head, names, -, hframe, -⟩ := h.frame_eq hpart
    cases hatom.symm.trans hframe
  · obtain ⟨head, names, -, hframe, -⟩ := h _ index hpart
    have hnone : value.children[first]? = none := by rw [Value.children_of_atom hatom]; rfl
    rw [Value.frameAt?_of_no_child hnone] at hframe
    cases hframe

end HidesExcluded

end Walk

end RuleCheck
