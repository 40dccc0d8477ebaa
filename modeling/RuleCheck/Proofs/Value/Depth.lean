import RuleCheck.Proofs.Visit.Passing
import RuleCheck.Value.Depth

/-! # Depth and rewriting

A node with other things inside is no deeper than before if none of those things is.
-/

namespace RuleCheck.Value

theorem depth_pos (value : Value) : 0 < value.depth := by
  cases value <;> simp [depth]

theorem depth_le_itemsDepth {item : Value} {items : List Value} (h : item ∈ items) :
    item.depth ≤ itemsDepth items := by
  induction items with
  | nil => simp at h
  | cons other items ih =>
      simp only [itemsDepth]
      rcases List.mem_cons.1 h with rfl | h
      · omega
      · have := ih h
        omega

theorem itemsDepth_map_snd (slots : List (String × Value)) :
    itemsDepth (slots.map Prod.snd) = slotsDepth slots := by
  induction slots with
  | nil => simp [itemsDepth, slotsDepth]
  | cons slot slots ih => simp [itemsDepth, slotsDepth, ih]

theorem itemsDepth_map_snd_le (entries : List (Value × Value)) :
    itemsDepth (entries.map Prod.snd) ≤ entriesDepth entries := by
  induction entries with
  | nil => simp [itemsDepth, entriesDepth]
  | cons entry entries ih =>
      simp only [List.map_cons, itemsDepth, entriesDepth]
      omega

theorem itemsDepth_each {replaced : Bool} {index : Nat} {items news : List Value}
    (h : Visits.Each (fun _ _ old new => new.depth ≤ old.depth) replaced index items news) :
    itemsDepth news ≤ itemsDepth items := by
  induction h with
  | nil => simp [itemsDepth]
  | cons head _ ih =>
      simp only [itemsDepth]
      omega

theorem slotsDepth_zipWith_le (slots : List (String × Value)) (news : List Value) :
    slotsDepth (List.zipWith (fun slot item => (slot.1, item)) slots news) ≤ itemsDepth news := by
  induction slots generalizing news with
  | nil => simp [slotsDepth]
  | cons slot slots ih =>
      cases news with
      | nil => simp [slotsDepth]
      | cons new news =>
          have := ih news
          simp only [List.zipWith_cons_cons, slotsDepth, itemsDepth]
          omega

theorem entriesDepth_zipWith_le {replaced : Bool} {index : Nat} {entries : List (Value × Value)}
    {news : List Value}
    (h : Visits.Each (fun _ _ old new => new.depth ≤ old.depth) replaced index
      (entries.map Prod.snd) news) :
    entriesDepth (List.zipWith (fun entry new => (entry.1, new)) entries news) ≤
      entriesDepth entries := by
  induction entries generalizing replaced index news with
  | nil => simp [entriesDepth]
  | cons entry entries ih =>
      obtain ⟨key, old⟩ := entry
      cases h with
      | cons head tail =>
          have := ih tail
          simp only [List.zipWith_cons_cons, entriesDepth] at head ⊢
          omega

theorem slotsDepth_putSlot_le {name : String} {content new : Value}
    {slots : List (String × Value)} (hcontent : slots.lookup name = some content)
    (h : new.depth ≤ content.depth) : slotsDepth (putSlot name new slots) ≤ slotsDepth slots := by
  induction slots with
  | nil => simp at hcontent
  | cons slot slots ih =>
      obtain ⟨own, old⟩ := slot
      by_cases hname : own = name
      · subst hname
        simp only [List.lookup_cons, beq_self_eq_true, Option.some.injEq] at hcontent
        subst hcontent
        simp only [putSlot, beq_self_eq_true, if_true, slotsDepth]
        omega
      · have hother : (name == own) = false := by simpa using Ne.symm hname
        simp only [List.lookup_cons, hother] at hcontent
        have := ih hcontent
        simp only [putSlot, beq_iff_eq, hname, if_false, slotsDepth]
        omega

theorem depth_lt_of_child {value child : Value} (h : child ∈ value.children) :
    child.depth < value.depth := by
  have hitems := depth_le_itemsDepth h
  cases value with
  | sequence kind derived items =>
      simp only [children, depth] at hitems ⊢
      omega
  | mapping kind derived entries =>
      have hvalues := itemsDepth_map_snd_le entries
      simp only [children, depth] at hitems ⊢
      omega
  | box content =>
      simp only [children, itemsDepth, depth] at hitems ⊢
      omega
  | record head slots =>
      have hvalues := itemsDepth_map_snd slots
      simp only [children, depth] at hitems ⊢
      omega
  | _ => cases h

theorem depth_lt_of_field {value content : Value} {name : String}
    (h : value.fieldContent? name = some content) : content.depth < value.depth := by
  cases value with
  | record head slots =>
      have hmem : content ∈ slots.map Prod.snd := by
        simp only [fieldContent?, field?] at h
        obtain ⟨_, _, hslots, -⟩ := List.lookup_eq_some_iff.1 h
        simp [hslots]
      have := depth_le_itemsDepth hmem
      rw [itemsDepth_map_snd] at this
      simp only [depth]
      omega
  | box old =>
      simp only [fieldContent?] at h
      split at h
      · cases h
        simp [depth]
      · cases h
  | _ => simp [fieldContent?, field?] at h

theorem depth_withField_le {value content new : Value} {name : String}
    (hcontent : value.fieldContent? name = some content) (h : new.depth ≤ content.depth) :
    (value.withField name new).depth ≤ value.depth := by
  cases value with
  | record head slots =>
      have := slotsDepth_putSlot_le hcontent h
      simp only [withField, depth]
      omega
  | box old =>
      simp only [fieldContent?] at hcontent
      split at hcontent
      · rename_i hname
        cases hcontent
        simp only [withField, hname, if_true, depth]
        omega
      · cases hcontent
  | _ => simp [fieldContent?, field?] at hcontent

/-- The items of a sequence are those of a range, or they lie below it. -/
theorem depth_rebuild_le {value : Value} {items news : List Value}
    (hitems : value.items? = some items) (h : itemsDepth news ≤ itemsDepth items)
    (replaced : Bool) : (value.rebuild replaced news).depth ≤ value.depth := by
  cases value with
  | sequence kind derived olds =>
      cases hitems
      unfold rebuild
      split <;> simp only [withItems, depth] <;> omega
  | record head slots =>
      cases htuple : head.isTuple with
      | false => simp [rebuild, isRebuilt, withItems, htuple]
      | true =>
          rw [items?_of_isTuple htuple, Option.some.injEq] at hitems
          rw [← hitems, itemsDepth_map_snd] at h
          have := slotsDepth_zipWith_le slots news
          unfold rebuild
          split <;> simp only [withItems, htuple, if_true, depth] <;> omega
  | _ => simp [rebuild, isRebuilt, withItems]

end RuleCheck.Value
