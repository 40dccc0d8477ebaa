import RuleCheck.Proofs.Value.Depth
import RuleCheck.Visit.Sequence

/-! # The order in which values are gone through

What is gone through in a value has fewer levels than the value, or as many and less spread: the numbers
of a range, the pairs of a model, the letters of a text.  Only a text of one letter is its own item.
-/

namespace RuleCheck.Value

/-- How often the things that are gone through in a value can be as deep as the value itself. -/
def spread : Value → Nat
  | .null => 0
  | .scalar .plain (.text s) => if s.length ≤ 1 then 0 else 1
  | .scalar .plain _ => 0
  | .record .. => 2
  | _ => 1

/-- The size of a value in the order in which a walk goes down. -/
def rank (value : Value) : Nat :=
  3 * value.depth + value.spread

theorem spread_le (value : Value) : value.spread ≤ 2 := by
  unfold spread
  split
  · omega
  · split <;> omega
  · omega
  · omega
  · omega

theorem spread_pos_of_depth {value : Value} (h : 1 < value.depth) : 0 < value.spread := by
  cases value with
  | null => simp [depth] at h
  | scalar => simp [depth] at h
  | foreign | member | sequence | range | mapping | box | record => simp [spread]

theorem rank_lt_of_depth {value other : Value} (h : value.depth < other.depth) :
    value.rank < other.rank := by
  have := value.spread_le
  unfold rank
  omega

/-! ## The items of a value -/

/-- A value that is smaller than another one: fewer levels, or as many and less spread. -/
def Below (item value : Value) : Prop :=
  item.depth < value.depth ∨ (item.depth = value.depth ∧ item.spread < value.spread)

theorem Below.rank_lt {item value : Value} (h : item.Below value) : item.rank < value.rank := by
  rcases h with hdepth | ⟨hdepth, hspread⟩
  · exact rank_lt_of_depth hdepth
  · unfold rank
    omega

theorem ofInt_below {value : Value} (n : Int) (hdepth : value.depth = 1) (hspread : value.spread = 1) :
    (ofInt n).Below value := by
  right
  rw [hdepth, hspread]
  exact ⟨rfl, Nat.zero_lt_one⟩

theorem key_below {kind : MappingKind} {derived : Option String} {entries : List (Value × Value)}
    {entry : Value × Value} (h : entry ∈ entries) :
    entry.1.Below (.mapping kind derived entries) ∧ entry.2.Below (.mapping kind derived entries) := by
  have hdepth : max entry.1.depth entry.2.depth ≤ entriesDepth entries := by
    induction entries with
    | nil => simp at h
    | cons other entries ih =>
        simp only [entriesDepth]
        rcases List.mem_cons.1 h with rfl | h
        · omega
        · have := ih h
          omega
  constructor <;> left <;> simp only [depth] <;> omega

/-- What is gone through in a record: its slots, or for a model a pair of name and value for each slot. -/
theorem slot_below {head : RecordHead} {slots : List (String × Value)} {item : Value}
    {items : List Value} (hitems : (record head slots).items? = some items) (hitem : item ∈ items) :
    item.Below (record head slots) := by
  have hslot {slot : String × Value} (h : slot ∈ slots) : slot.2.depth ≤ slotsDepth slots := by
    rw [← itemsDepth_map_snd]
    exact depth_le_itemsDepth (List.mem_map_of_mem h)
  have hplain (h : items = slots.map Prod.snd) : item.Below (record head slots) := by
    rw [h] at hitem
    obtain ⟨slot, hmem, rfl⟩ := List.mem_map.1 hitem
    have := hslot hmem
    left
    simp only [depth]
    omega
  unfold items? at hitems
  simp only at hitems
  split at hitems
  · exact hplain (Option.some.inj hitems).symm
  · exact hplain (Option.some.inj hitems).symm
  · rw [← Option.some.inj hitems] at hitem
    obtain ⟨slot, hmem, rfl⟩ := List.mem_map.1 hitem
    have := hslot hmem
    have := slot.2.depth_pos
    rcases Nat.lt_or_ge slot.2.depth (slotsDepth slots) with hlt | hge
    · left
      simp only [depth, itemsDepth, ofText]
      omega
    · right
      simp only [depth, itemsDepth, ofText, spread]
      omega
  · cases hitems

theorem letter_below (origin : Origin) {s : String} {c : Char} (hc : c ∈ s.toList) :
    (ofText (String.singleton c)).Below (.scalar origin (.text s)) ∨
      ofText (String.singleton c) = .scalar origin (.text s) := by
  have hspread : (ofText (String.singleton c)).spread = 0 := by simp [ofText, spread]
  cases origin with
  | plain =>
      rcases Nat.lt_or_ge 1 s.length with hlong | hshort
      · refine .inl (.inr ⟨rfl, ?_⟩)
        rw [hspread]
        simp [spread, Nat.not_le.2 hlong]
      · right
        have hletters : s.toList = [c] := by
          rw [← String.length_toList] at hshort
          match hs : s.toList, hc, hshort with
          | [], hc, _ => simp at hc
          | [d], hc, _ => rw [List.mem_singleton.1 hc]
        have hs : s = String.singleton c := by
          rw [← String.toList_inj, hletters]
          simp
        rw [hs, ofText]
  | derived name | member enumeration name =>
      refine .inl (.inr ⟨rfl, ?_⟩)
      rw [hspread]
      exact Nat.zero_lt_one

/-- What is gone through in a value is smaller, or is the only letter of a text. -/
theorem item_below {value item : Value} {items : List Value} (hitems : value.items? = some items)
    (hitem : item ∈ items) :
    item.Below value ∨ (item = value ∧ ∃ origin s, value = .scalar origin (.text s)) := by
  cases value with
  | sequence kind derived own =>
      cases hitems
      have := depth_le_itemsDepth hitem
      refine .inl (.inl ?_)
      simp only [depth]
      omega
  | range start stop step =>
      cases hitems
      obtain ⟨i, -, rfl⟩ := List.mem_map.1 hitem
      exact .inl (ofInt_below _ rfl rfl)
  | mapping kind derived entries =>
      cases hitems
      obtain ⟨entry, hentry, rfl⟩ := List.mem_map.1 hitem
      exact .inl (key_below hentry).1
  | record head slots => exact .inl (slot_below hitems hitem)
  | foreign content =>
      cases content with
      | bytes content =>
          cases hitems
          obtain ⟨b, -, rfl⟩ := List.mem_map.1 hitem
          exact .inl (ofInt_below _ rfl rfl)
      | byteArray content =>
          cases hitems
          obtain ⟨b, -, rfl⟩ := List.mem_map.1 hitem
          exact .inl (ofInt_below _ rfl rfl)
      | date | complex => cases hitems
  | scalar origin content =>
      cases content with
      | text s =>
          cases hitems
          obtain ⟨c, hc, rfl⟩ := List.mem_map.1 hitem
          exact (letter_below origin hc).imp_right fun heq => ⟨heq, origin, s, rfl⟩
      | _ => cases hitems
  | null | member | box => cases hitems

end RuleCheck.Value
