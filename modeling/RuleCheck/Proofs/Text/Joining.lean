import RuleCheck.Proofs.Text.Folding

/-! # Rule sets as rule texts

The tokens of a rule text, written one after another with commas between them, are a rule text of the same
tokens, and so are any tokens that are left when some are taken out.
-/

namespace RuleCheck

namespace Text

variable {separator : Char}

theorem cut_of_not_mem {s : List Char} (h : separator ∉ s) : cut separator s = [s] := by
  induction s with
  | nil => rfl
  | cons c s ih =>
      have hne := List.ne_of_not_mem_cons h
      have hrest := List.not_mem_of_not_mem_cons h
      simp [cut, Ne.symm hne, ih hrest]

theorem cut_append {s : List Char} (h : separator ∉ s) (rest : List Char) :
    cut separator (s ++ separator :: rest) = s :: cut separator rest := by
  induction s with
  | nil => simp [cut]
  | cons c s ih =>
      have hne := List.ne_of_not_mem_cons h
      have hrest := List.not_mem_of_not_mem_cons h
      simp [cut, Ne.symm hne, ih hrest]

theorem not_mem_of_mem_cut {s piece : List Char} (h : piece ∈ cut separator s) : separator ∉ piece := by
  induction s generalizing piece with
  | nil =>
      rw [List.mem_singleton.1 h]
      exact List.not_mem_nil
  | cons c s ih =>
      unfold cut at h
      split at h
      · rcases List.mem_cons.1 h with rfl | h
        · exact List.not_mem_nil
        · exact ih h
      · rename_i hne
        obtain ⟨first, pieces, hcut⟩ := List.exists_cons_of_ne_nil (cut_ne_nil separator s)
        rw [hcut] at h ih
        rcases List.mem_cons.1 h with rfl | h
        · exact List.not_mem_cons_of_ne_of_not_mem (Ne.symm hne) (ih List.mem_cons_self)
        · exact ih (List.mem_cons_of_mem first h)

theorem cut_intercalate {pieces : List (List Char)} (hpieces : pieces ≠ [])
    (h : ∀ piece ∈ pieces, separator ∉ piece) :
    cut separator ([separator].intercalate pieces) = pieces := by
  induction pieces with
  | nil => exact absurd rfl hpieces
  | cons first rest ih =>
      have hfirst := h first List.mem_cons_self
      cases rest with
      | nil =>
          rw [List.intercalate_singleton]
          exact cut_of_not_mem hfirst
      | cons second rest =>
          have hrest := ih (List.cons_ne_nil second rest) fun piece hpiece =>
            h piece (List.mem_cons_of_mem first hpiece)
          rw [List.intercalate_cons_cons, List.append_assoc, List.singleton_append, cut_append hfirst,
            hrest]

theorem mem_of_mem_trim {s : List Char} {c : Char} (h : c ∈ trim s) : c ∈ s := by
  unfold trim trimEnd at h
  have hstart := (List.dropWhile_suffix isBlank).mem (List.mem_reverse.1 h)
  exact (List.dropWhile_suffix isBlank).mem (List.mem_reverse.1 hstart)

end Text

namespace RuleSet

/-- Whether the tokens are such as a rule text has: not empty, and without commas and outer blanks. -/
def Written (rules : RuleSet) : Prop :=
  ∀ token ∈ rules.tokens, token ≠ "" ∧ ',' ∉ token.toList ∧ Text.strip token = token

theorem written_parse (text : String) : (parse text).Written := by
  intro token htoken
  simp only [parse, List.mem_filter, List.mem_map, bne_iff_ne, ne_eq] at htoken
  obtain ⟨⟨piece, hpiece, rfl⟩, hne⟩ := htoken
  refine ⟨hne, ?_, Text.strip_strip piece⟩
  intro hcomma
  rw [Text.toList_strip] at hcomma
  obtain ⟨chars, hchars, rfl⟩ := List.mem_map.1 hpiece
  rw [String.toList_ofList] at hcomma
  exact Text.not_mem_of_mem_cut hchars (Text.mem_of_mem_trim hcomma)

theorem Written.of_subset {rules fewer : RuleSet} (h : rules.Written)
    (hfewer : fewer.tokens ⊆ rules.tokens) : fewer.Written :=
  fun token htoken => h token (hfewer htoken)

/-- The tokens of a rule text are read from the text that they make up as they are. -/
theorem parse_text {rules : RuleSet} (h : rules.Written) : parse rules.text = rules := by
  obtain ⟨tokens⟩ := rules
  have hstrip : tokens.map Text.strip = tokens :=
    (List.map_congr_left fun token htoken => (h token htoken).2.2).trans (List.map_id' tokens)
  have hfilter : tokens.filter (fun token => token != "") = tokens :=
    List.filter_eq_self.2 fun token htoken => by simpa using (h token htoken).1
  cases tokens with
  | nil => decide
  | cons first rest =>
      have hcut : Text.cutString ',' (text ⟨first :: rest⟩) = first :: rest := by
        unfold Text.cutString text
        have hcommas : ∀ piece ∈ (first :: rest).map String.toList, ',' ∉ piece := by
          intro piece hpiece
          obtain ⟨token, htoken, rfl⟩ := List.mem_map.1 hpiece
          exact (h token htoken).2.1
        rw [String.toList_intercalate]
        show (Text.cut ',' ([','].intercalate _)).map String.ofList = _
        rw [Text.cut_intercalate (by simp) hcommas, List.map_map]
        exact List.map_id'' (fun token => String.ofList_toList) (first :: rest)
      unfold parse
      rw [hcut, hstrip, hfilter]

end RuleSet

end RuleCheck
