import RuleCheck.Proofs.Category.Present

/-! # Optional annotations

To make an annotation optional adds the missing value to it, unless it is there already.  Below the optional layer
that this puts around the annotation stands the annotation itself.
-/

namespace RuleCheck

namespace Annotation

def boxed (content : Annotation) : Annotation :=
  .applied (.builtIn .box) [content]

/-- Whether an annotation is no union, or one of several members that are no unions and are not repeated. -/
def IsFlat : Annotation → Prop
  | .union members => 2 ≤ members.length ∧ (∀ member ∈ members, member.members = [member]) ∧
      members.Pairwise fun earlier later => later.same earlier = false
  | _ => True

theorem members_union_ne (list : List Annotation) : (union list).members ≠ [union list] := by
  intro h
  have hsize := congrArg sizeOf h
  simp [members] at hsize
  omega

theorem isFlat_of_members {a : Annotation} (h : a.members = [a]) : a.IsFlat := by
  cases a with
  | union list => exact absurd h (members_union_ne list)
  | _ => trivial

theorem same_null (a : Annotation) : null.same a = a.isNull := by
  cases a with
  | bare base =>
      simp only [null, same, isNull]
      split
      · rename_i h
        cases h
        rfl
      · rename_i h
        rw [beq_eq_false_iff_ne]
        rintro rfl
        exact h rfl
  | _ => rfl

theorem dropRepeated_of_pairwise {list : List Annotation}
    (h : list.Pairwise fun earlier later => later.same earlier = false) : dropRepeated list = list := by
  have hfold (list kept : List Annotation)
      (h : list.Pairwise fun earlier later => later.same earlier = false)
      (hkept : ∀ later ∈ list, ∀ earlier ∈ kept, later.same earlier = false) :
      list.foldl (fun kept a => if kept.any (same a) then kept else kept ++ [a]) kept = kept ++ list := by
    induction list generalizing kept with
    | nil => simp
    | cons a list ih =>
        obtain ⟨hfirst, hrest⟩ := List.pairwise_cons.1 h
        have hnone : kept.any (same a) = false := by
          rw [List.any_eq_false]
          exact fun earlier hearlier => by simp [hkept a (by simp) earlier hearlier]
        rw [List.foldl_cons, hnone, if_neg Bool.false_ne_true, ih _ hrest, List.append_assoc,
          List.singleton_append]
        intro later hlater earlier hearlier
        rcases List.mem_append.1 hearlier with hold | hnew
        · exact hkept later (by simp [hlater]) earlier hold
        · rw [List.mem_singleton.1 hnew]
          exact hfirst later hlater
  exact hfold list [] h (by simp)

theorem flatMap_members {list : List Annotation} (h : ∀ a ∈ list, a.members = [a]) :
    list.flatMap members = list := by
  induction list with
  | nil => rfl
  | cons a list ih =>
      rw [List.forall_mem_cons] at h
      rw [List.flatMap_cons, h.1, ih h.2, List.singleton_append]

namespace IsFlat

variable {a : Annotation}

theorem pairwise (h : a.IsFlat) :
    a.members.Pairwise fun earlier later => later.same earlier = false := by
  cases a with
  | union members => exact h.2.2
  | _ => exact List.pairwise_singleton _ _

theorem members_ne_nil (h : a.IsFlat) : a.members ≠ [] := by
  cases a with
  | union members =>
      intro hnil
      have hlength : 2 ≤ members.length := h.1
      have hnone : members = [] := hnil
      simp [hnone] at hlength
  | _ => simp [members]

theorem unite_eq (h : a.IsFlat) {list : List Annotation}
    (hlist : dropRepeated (list.flatMap Annotation.members) = a.members) : unite list = a := by
  unfold unite
  rw [hlist]
  cases a with
  | union list =>
      have hlength : 2 ≤ list.length := h.1
      simp only [members]
      split
      · simp at hlength
      · rfl
  | _ => rfl

theorem members_single (h : a.IsFlat) : ∀ member ∈ a.members, member.members = [member] := by
  cases a with
  | union members => exact h.2.1
  | _ =>
      intro member hmember
      rw [List.mem_singleton.1 hmember]
      rfl

theorem unite_members (h : a.IsFlat) : unite a.members = a :=
  h.unite_eq (by rw [flatMap_members h.members_single, dropRepeated_of_pairwise h.pairwise])

theorem optional_eq (h : a.IsFlat) :
    a.optional = if a.members.any isNull then a else .union (a.members ++ [null]) := by
  have hmembers : [a, null].flatMap Annotation.members = a.members ++ [null] := by
    simp [members, null]
  have hdrop : dropRepeated (a.members ++ [null]) =
      if a.members.any isNull then a.members else a.members ++ [null] := by
    have hold := dropRepeated_of_pairwise h.pairwise
    unfold dropRepeated at hold ⊢
    rw [List.foldl_append, hold, List.foldl_cons, List.foldl_nil]
    simp only [show same null = isNull from funext same_null]
  cases hnull : a.members.any isNull with
  | true =>
      rw [hnull, if_pos rfl] at hdrop
      exact h.unite_eq (by rw [hmembers, hdrop])
  | false =>
      rw [hnull, if_neg Bool.false_ne_true] at hdrop
      have hpos := List.length_pos_iff.2 h.members_ne_nil
      rw [optional, unite, hmembers, hdrop]
      simp only [Bool.false_eq_true, if_false]
      split
      · rename_i single hsingle
        have hlength := congrArg List.length hsingle
        rw [List.length_append, List.length_singleton, List.length_singleton] at hlength
        omega
      · rfl

end IsFlat

/-! ## Unions are flat -/

/-- What is left of a list has no repetitions, comes from the list, and is not empty unless the list is. -/
theorem dropRepeated_spec (list : List Annotation) :
    (dropRepeated list).Pairwise (fun earlier later => later.same earlier = false) ∧
      (∀ a ∈ dropRepeated list, a ∈ list) ∧ (list ≠ [] → dropRepeated list ≠ []) := by
  have hfold (list kept : List Annotation)
      (h : kept.Pairwise fun earlier later => later.same earlier = false) :
      let left := list.foldl (fun kept a => if kept.any (same a) then kept else kept ++ [a]) kept
      left.Pairwise (fun earlier later => later.same earlier = false) ∧
        (∀ a ∈ left, a ∈ kept ∨ a ∈ list) ∧ (kept ≠ [] ∨ list ≠ [] → left ≠ []) := by
    induction list generalizing kept with
    | nil => simp [h]
    | cons a list ih =>
        simp only [List.foldl_cons]
        cases hknown : kept.any (same a) with
        | true =>
            obtain ⟨hpairs, hfrom, hsome⟩ := ih kept h
            have hkept : kept ≠ [] := by
              rintro rfl
              cases hknown
            rw [if_pos rfl]
            exact ⟨hpairs, fun b hb => (hfrom b hb).imp_right (List.mem_cons_of_mem a),
              fun _ => hsome (.inl hkept)⟩
        | false =>
            have hnew : (kept ++ [a]).Pairwise fun earlier later => later.same earlier = false := by
              refine List.pairwise_append.2 ⟨h, List.pairwise_singleton _ _, fun b hb c hc => ?_⟩
              rw [List.mem_singleton.1 hc]
              simpa using List.any_eq_false.1 hknown b hb
            obtain ⟨hpairs, hfrom, hsome⟩ := ih _ hnew
            rw [if_neg Bool.false_ne_true]
            refine ⟨hpairs, fun b hb => ?_, fun _ => hsome (.inl (by simp))⟩
            simpa [or_assoc] using hfrom b hb
  obtain ⟨hpairs, hfrom, hsome⟩ := hfold list [] .nil
  exact ⟨hpairs, fun a ha => (hfrom a ha).resolve_left (by simp), fun h => hsome (.inr h)⟩

theorem isFlat_unite {list : List Annotation} (hsome : list ≠ []) (h : ∀ a ∈ list, a.IsFlat) :
    (unite list).IsFlat := by
  have hsingle : ∀ member ∈ list.flatMap members, member.members = [member] := by
    intro member hmember
    obtain ⟨a, ha, hin⟩ := List.mem_flatMap.1 hmember
    exact (h a ha).members_single member hin
  have hmembers : list.flatMap members ≠ [] := by
    obtain ⟨a, ha⟩ := List.exists_mem_of_ne_nil list hsome
    obtain ⟨member, hmember⟩ := List.exists_mem_of_ne_nil _ (h a ha).members_ne_nil
    exact List.ne_nil_of_mem (List.mem_flatMap.2 ⟨a, ha, hmember⟩)
  obtain ⟨hpairs, hfrom, hleft⟩ := dropRepeated_spec (list.flatMap members)
  unfold unite
  split
  · rename_i single hdrop
    have hown := hsingle single (hfrom single (by simp [hdrop]))
    cases single with
    | union list => exact absurd hown (members_union_ne list)
    | _ => trivial
  · rename_i hmany
    refine ⟨?_, fun member hmember => hsingle member (hfrom member hmember), hpairs⟩
    generalize dropRepeated (list.flatMap members) = left at hmany hleft
    cases left with
    | nil => exact absurd rfl (hleft hmembers)
    | cons first others =>
        cases others with
        | nil => exact absurd rfl (hmany first)
        | cons second others => simp

end Annotation

namespace Value

/-- An optional annotation is as it was before, or the layer around what it was, unsigned if an outer layer is. -/
theorem resolveAs_optional_eq {a : Annotation} (h : a.IsFlat) (value : Value) (unsigned : Bool) :
    a.optional = a ∨ value.resolveAs unsigned a.optional =
      .ofElement .optional (if unsigned then a.annotate [.unsigned] else a) := by
  rw [h.optional_eq]
  cases hnull : a.members.any Annotation.isNull with
  | true => exact .inl rfl
  | false =>
      refine .inr ?_
      have hpresent : (a.members ++ [ Annotation.null]).filter (fun member => !member.isNull) = a.members := by
        have hkept : ∀ member ∈ a.members, (!member.isNull) = true := by
          intro member hmember
          rw [List.any_eq_false] at hnull
          simpa using hnull member hmember
        rw [List.filter_append, List.filter_eq_self.2 hkept]
        exact List.append_nil _
      simp only [Bool.false_eq_true, if_false, resolveAs, hpresent, h.unite_members,
        List.length_append, List.length_singleton]
      rw [if_neg (by omega)]

theorem resolve_optional_eq {a : Annotation} (h : a.IsFlat) (value : Value) :
    a.optional = a ∨ value.resolve a.optional = .ofElement .optional a :=
  resolveAs_optional_eq h value false

/-- The missing value is optional under every optional annotation. -/
theorem category_null_optional {a : Annotation} (h : a.IsFlat) :
    (null.resolve a.optional).category = .optional := by
  rcases resolve_optional_eq h null with hsame | hlayer
  · have hnull : a.members.any Annotation.isNull = true := by
      have heq := h.optional_eq
      rw [hsame] at heq
      cases hnone : a.members.any Annotation.isNull with
      | true => rfl
      | false =>
          rw [hnone, if_neg Bool.false_ne_true] at heq
          have hmembers := congrArg (fun a => a.members.length) heq
          simp [ Annotation.members] at hmembers
    rw [hsame]
    cases a with
    | union members =>
        obtain ⟨member, hmember, hmissing⟩ := List.any_eq_true.1 hnull
        have hfewer : (members.filter fun member => !member.isNull).length ≠ members.length := by
          intro hall
          have hkept := List.length_filter_eq_length_iff.1 hall member hmember
          rw [hmissing] at hkept
          cases hkept
        simp only [resolve, resolveAs]
        rw [if_neg hfewer]
        rfl
    | bare base =>
        have hbase : ( Annotation.bare base).isNull = true := by simpa [ Annotation.members] using hnull
        unfold Annotation.isNull at hbase
        split at hbase
        · rename_i heq
          cases heq
          rfl
        · cases hbase
    | _ => cases hnull
  · rw [hlayer]
    rfl

end Value

end RuleCheck
