import RuleCheck.Text.Blank
import RuleCheck.Text.Case
import RuleCheck.Visit.Scalar
import Mathlib.Data.List.Basic
import Mathlib.Data.List.Induction
import Mathlib.Data.Nat.Bitwise

/-! # Folded texts stay as they are

Trimming, capitals and small letters can be asked for in any combination.  What they leave is no blank at
an end and no character that the same fold would change again, so a second fold finds nothing to do.

The characters that a fold changes and those that it puts in their place are listed from the tables; that
the two lists have nothing in common is decided on bit masks, one bit for each code point.
-/

namespace RuleCheck.Text

/-! ## Trimmed texts -/

/-- Whether a text neither starts nor ends with a blank. -/
def Trimmed (s : List Char) : Prop :=
  (∀ c, s.head? = some c → isBlank c = false) ∧ ∀ c, s.getLast? = some c → isBlank c = false

theorem trim_eq_self {s : List Char} (h : Trimmed s) : trim s = s := by
  have hstart : trimStart s = s := by
    cases s with
    | nil => rfl
    | cons c s => simp [trimStart, h.1 c rfl]
  have hend : trimEnd s = s := by
    unfold trimEnd
    cases hreverse : s.reverse with
    | nil => simpa using hreverse
    | cons c rest =>
        have hlast : s.getLast? = some c := by
          rw [List.getLast?_eq_head?_reverse, hreverse]
          rfl
        rw [List.dropWhile_cons_of_neg (by simp [h.2 c hlast]), ← hreverse, List.reverse_reverse]
  rw [trim, hstart, hend]

private theorem head?_dropWhile_isBlank {s : List Char} {c : Char}
    (h : (s.dropWhile isBlank).head? = some c) : isBlank c = false := by
  have hnot := List.head?_dropWhile_not isBlank s
  rw [h] at hnot
  simpa using hnot

theorem trimmed_trim (s : List Char) : Trimmed (trim s) := by
  refine ⟨fun c hc => ?_, fun c hc => ?_⟩
  · -- what is cut off at the end leaves the start alone
    obtain ⟨cut, hcut⟩ : trimEnd (trimStart s) <+: trimStart s := by
      have hsuffix := List.dropWhile_suffix isBlank (l := (trimStart s).reverse)
      simpa [trimEnd] using List.reverse_prefix.2 hsuffix
    have hhead : (trimStart s).head? = some c := by
      rw [← hcut, List.head?_append, show (trimEnd (trimStart s)).head? = some c from hc]
      rfl
    exact head?_dropWhile_isBlank hhead
  · unfold trim trimEnd at hc
    rw [List.getLast?_reverse] at hc
    exact head?_dropWhile_isBlank hc

/-! ## Sets of code points -/

/-- The number whose binary digits tell which code points are in a list. -/
def mask : List Nat → Nat
  | [] => 0
  | n :: codes => 2 ^ n ||| mask codes

theorem testBit_mask (codes : List Nat) (n : Nat) : (mask codes).testBit n = decide (n ∈ codes) := by
  induction codes with
  | nil => simp [mask]
  | cons m codes ih =>
      rw [mask, Nat.testBit_or, ih, Nat.testBit_two_pow]
      by_cases h : n = m
      · simp [h]
      · simp [h, Ne.symm h]

theorem not_mem_of_mask {codes others : List Nat} (h : mask codes &&& mask others = 0) {n : Nat}
    (hn : n ∈ codes) : n ∉ others := by
  intro hother
  have hbit : (mask codes &&& mask others).testBit n = true := by
    rw [Nat.testBit_and, testBit_mask, testBit_mask]
    simp [hn, hother]
  rw [h] at hbit
  simp at hbit

/-- The code points of runs, each with its image. -/
def runMembers (runs : List (Nat × Nat × Nat × Int)) : List (Nat × Nat) :=
  runs.flatMap fun (first, last, step, shift) =>
    (List.range ((last - first) / step + 1)).map fun i =>
      (first + i * step, (Int.ofNat (first + i * step) + shift).toNat)

theorem mem_runMembers {runs : List (Nat × Nat × Nat × Int)} {n image : Nat}
    (h : shifted? runs n = some image) : (n, image) ∈ runMembers runs := by
  obtain ⟨⟨first, last, step, shift⟩, hfind, rfl⟩ := Option.map_eq_some_iff.1 h
  have hrun := List.find?_some hfind
  simp only [Bool.and_eq_true, decide_eq_true_eq, beq_iff_eq] at hrun
  obtain ⟨⟨hfirst, hlast⟩, hstep⟩ := hrun
  have hn : first + (n - first) / step * step = n := by
    have := Nat.div_add_mod (n - first) step
    rw [Nat.mul_comm] at this
    omega
  refine List.mem_flatMap.2 ⟨_, List.mem_of_find?_eq_some hfind, List.mem_map.2
    ⟨(n - first) / step, ?_, by simp only [hn]⟩⟩
  have := Nat.div_le_div_right (c := step) (Nat.sub_le_sub_right hlast first)
  rw [List.mem_range]
  omega

def blankCodes : List Nat :=
  [9, 10, 11, 12, 13, 28, 29, 30, 31, 32, 0x85, 0xA0, 0x1680, 0x2000, 0x2001, 0x2002, 0x2003, 0x2004,
    0x2005, 0x2006, 0x2007, 0x2008, 0x2009, 0x200A, 0x2028, 0x2029, 0x202F, 0x205F, 0x3000]

theorem mem_blankCodes {c : Char} (h : isBlank c = true) : c.toNat ∈ blankCodes := by
  simp only [isBlank, Bool.or_eq_true, Bool.and_eq_true, decide_eq_true_eq, beq_iff_eq] at h
  simp only [blankCodes, List.mem_cons, List.not_mem_nil, or_false]
  omega

/-- A fold of the case: the code points that it changes, and those that it puts in their place. -/
structure CaseTable where
  sources : List Nat
  targets : List Nat
  valid : (targets.all fun n => n.isValidChar) = true
  settled : mask targets &&& mask (sources ++ blankCodes) = 0

namespace CaseTable

variable (table : CaseTable)

theorem toNat_ofNat {n : Nat} (h : n ∈ table.targets) : (Char.ofNat n).toNat = n := by
  have hvalid : n.isValidChar := by simpa using List.all_eq_true.1 table.valid n h
  rw [Char.ofNat, dif_pos hvalid]
  rfl

theorem not_mem_sources {n : Nat} (h : n ∈ table.targets) :
    (Char.ofNat n).toNat ∉ table.sources := by
  rw [table.toNat_ofNat h]
  exact fun hsource => not_mem_of_mask table.settled h (List.mem_append_left _ hsource)

theorem isBlank_ofNat {n : Nat} (h : n ∈ table.targets) : isBlank (Char.ofNat n) = false := by
  cases hblank : isBlank (Char.ofNat n) with
  | false => rfl
  | true =>
      have hcode := mem_blankCodes hblank
      rw [table.toNat_ofNat h] at hcode
      exact absurd (List.mem_append_right _ hcode) (not_mem_of_mask table.settled h)

/-- Whether a text consists of targets of the fold, and is not empty. -/
def Writes (form : List Char) : Prop :=
  form ≠ [] ∧ ∀ d ∈ form, ∃ n ∈ table.targets, d = Char.ofNat n

theorem writes_map (codes : List Nat) (hcodes : codes ≠ [])
    (htargets : ∀ n ∈ codes, n ∈ table.targets) : table.Writes (codes.map Char.ofNat) := by
  refine ⟨by simpa using hcodes, fun d hd => ?_⟩
  obtain ⟨n, hn, rfl⟩ := List.mem_map.1 hd
  exact ⟨n, htargets n hn, rfl⟩

theorem writes_image {runs : List (Nat × Nat × Nat × Int)} {n image : Nat}
    (h : shifted? runs n = some image)
    (htable : ∀ m ∈ (runMembers runs).map Prod.snd, m ∈ table.targets) :
    table.Writes [Char.ofNat image] :=
  table.writes_map [image] (by simp) fun m hm => by
    rw [List.mem_singleton.1 hm]
    exact htable image (List.mem_map_of_mem (f := Prod.snd) (mem_runMembers h))

theorem isBlank_of_form {c : Char} {form : List Char} (h : form = [c] ∨ table.Writes form)
    (hc : isBlank c = false) : ∀ d ∈ form, isBlank d = false := by
  intro d hd
  rcases h with rfl | ⟨-, htargets⟩
  · rwa [List.mem_singleton.1 hd]
  · obtain ⟨n, hn, rfl⟩ := htargets d hd
    exact table.isBlank_ofNat hn

end CaseTable

theorem shifted?_eq_none {runs : List (Nat × Nat × Nat × Int)} {n : Nat}
    (h : n ∉ (runMembers runs).map Prod.fst) : shifted? runs n = none := by
  cases hshift : shifted? runs n with
  | none => rfl
  | some image => exact absurd (List.mem_map_of_mem (f := Prod.fst) (mem_runMembers hshift)) h

/-! ## Capitals -/

def capitalTable : CaseTable where
  sources := (runMembers capitalRuns).map Prod.fst ++ longCapitals.map Prod.fst
  targets := (runMembers capitalRuns).map Prod.snd ++ longCapitals.flatMap Prod.snd
  valid := by decide +kernel
  settled := by decide +kernel

/-- The capital form of a character is the character itself, or one that the fold puts in its place. -/
theorem capitalForm_cases (c : Char) :
    capitalForm c = [c] ∨ capitalTable.Writes (capitalForm c) := by
  unfold capitalForm capitalCode
  cases hlong : longCapitals.find? fun entry => entry.1 == c.toNat with
  | some entry =>
      have hentry := List.mem_of_find?_eq_some hlong
      have hforms : ∀ entry ∈ longCapitals, entry.2 ≠ [] := by decide +kernel
      refine .inr (capitalTable.writes_map _ (hforms entry hentry) fun n hn => ?_)
      exact List.mem_append_right _ (List.mem_flatMap.2 ⟨entry, hentry, hn⟩)
  | none =>
      cases hshift : shifted? capitalRuns c.toNat with
      | some image =>
          exact .inr (capitalTable.writes_image hshift fun m hm => List.mem_append_left _ hm)
      | none => exact .inl (by simp)

theorem capitalForm_of_not_mem {c : Char} (h : c.toNat ∉ capitalTable.sources) :
    capitalForm c = [c] := by
  have hrun : shifted? capitalRuns c.toNat = none :=
    shifted?_eq_none fun hmem => h (List.mem_append_left _ hmem)
  have hlong : longCapitals.find? (fun entry => entry.1 == c.toNat) = none := by
    refine List.find?_eq_none.2 fun entry hentry hcode => h (List.mem_append_right _ ?_)
    exact List.mem_map.2 ⟨entry, hentry, by simpa using hcode⟩
  simp [capitalForm, capitalCode, hlong, hrun]

theorem capitalForm_of_mem {c d : Char} (h : d ∈ capitalForm c) : capitalForm d = [d] := by
  rcases capitalForm_cases c with hsame | ⟨-, htargets⟩
  · rw [hsame, List.mem_singleton] at h
    rw [h, hsame]
  · obtain ⟨n, hn, rfl⟩ := htargets d h
    exact capitalForm_of_not_mem (capitalTable.not_mem_sources hn)

theorem capitalForm_ne_nil (c : Char) : capitalForm c ≠ [] := by
  rcases capitalForm_cases c with hsame | hwrites
  · simp [hsame]
  · exact hwrites.1

theorem capitals_capitals (s : List Char) : capitals (capitals s) = capitals s := by
  have hfixed : ∀ s : List Char, (∀ c ∈ s, capitalForm c = [c]) → capitals s = s := by
    intro s h
    induction s with
    | nil => rfl
    | cons c s ih =>
        have hrest := ih fun d hd => h d (by simp [hd])
        simp only [capitals, List.flatMap_cons, h c (by simp)] at hrest ⊢
        rw [hrest, List.singleton_append]
  refine hfixed _ fun d hd => ?_
  obtain ⟨c, -, hd⟩ := List.mem_flatMap.1 hd
  exact capitalForm_of_mem hd

theorem trimmed_capitals {s : List Char} (h : Trimmed s) : Trimmed (capitals s) := by
  have hform (c : Char) := capitalTable.isBlank_of_form (capitalForm_cases c)
  refine ⟨fun d hd => ?_, fun d hd => ?_⟩
  · cases s with
    | nil => simp [capitals] at hd
    | cons c s =>
        rw [capitals, List.flatMap_cons, List.head?_append_of_ne_nil _ (capitalForm_ne_nil c)] at hd
        exact hform c (h.1 c rfl) d (List.mem_of_mem_head? hd)
  · cases s using List.reverseRecOn with
    | nil => simp [capitals] at hd
    | append_singleton s c _ =>
        rw [capitals, List.flatMap_append, List.flatMap_singleton,
          List.getLast?_append_of_ne_nil _ (capitalForm_ne_nil c)] at hd
        exact hform c (h.2 c (by simp)) d (List.mem_of_mem_getLast? hd)

/-! ## Small letters -/

def smallTable : CaseTable where
  sources := 0x3A3 :: 0x130 :: (runMembers smallRuns).map Prod.fst
  targets := 0x3C2 :: 0x3C3 :: 0x69 :: 0x307 :: (runMembers smallRuns).map Prod.snd
  valid := by decide +kernel
  settled := by decide +kernel

theorem smallForm_cases (c : Char) :
    (∀ before after, smallForm before c after = [c]) ∨
      ∀ before after, smallTable.Writes (smallForm before c after) := by
  by_cases hsigma : c.toNat = 0x3A3
  · refine .inr fun before after => ?_
    simp only [smallForm, hsigma, beq_self_eq_true, if_true]
    split
    · exact smallTable.writes_map [0x3C2] (by simp) (by simp [smallTable])
    · exact smallTable.writes_map [0x3C3] (by simp) (by simp [smallTable])
  · by_cases hdotted : c.toNat = 0x130
    · refine .inr fun before after => ?_
      have hform : smallForm before c after = [0x69, 0x307].map Char.ofNat := by
        simp [smallForm, hdotted]
      rw [hform]
      exact smallTable.writes_map _ (by simp) (by simp [smallTable])
    · have hform (before after : List Char) : smallForm before c after =
          [Char.ofNat ((shifted? smallRuns c.toNat).getD c.toNat)] := by
        simp [smallForm, smallCode, hsigma, hdotted]
      simp only [hform]
      cases hshift : shifted? smallRuns c.toNat with
      | some image =>
          exact .inr fun _ _ => smallTable.writes_image hshift fun m hm => by simp [smallTable, hm]
      | none => exact .inl fun _ _ => by simp

theorem smallForm_of_not_mem {c : Char} (h : c.toNat ∉ smallTable.sources)
    (before after : List Char) : smallForm before c after = [c] := by
  simp only [smallTable, List.mem_cons, not_or] at h
  obtain ⟨hsigma, hdotted, hruns⟩ := h
  simp [smallForm, smallCode, hsigma, hdotted, shifted?_eq_none hruns]

theorem smallForm_of_mem {c d : Char} {before after : List Char} (h : d ∈ smallForm before c after)
    (before' after' : List Char) : smallForm before' d after' = [d] := by
  rcases smallForm_cases c with hsame | hwrites
  · rw [hsame, List.mem_singleton] at h
    rw [h, hsame]
  · obtain ⟨n, hn, rfl⟩ := (hwrites before after).2 d h
    exact smallForm_of_not_mem (smallTable.not_mem_sources hn) before' after'

theorem smallForm_ne_nil (before : List Char) (c : Char) (after : List Char) :
    smallForm before c after ≠ [] := by
  rcases smallForm_cases c with hsame | hwrites
  · simp [hsame]
  · exact (hwrites before after).1

theorem isBlank_of_mem_smallForm {c d : Char} {before after : List Char} (hc : isBlank c = false)
    (h : d ∈ smallForm before c after) : isBlank d = false := by
  refine smallTable.isBlank_of_form ?_ hc d h
  exact (smallForm_cases c).imp (fun hsame => hsame before after) fun hwrites => hwrites before after

theorem mem_smallsFrom {before s : List Char} {d : Char} (h : d ∈ smallsFrom before s) :
    ∃ before' c after, d ∈ smallForm before' c after := by
  induction s generalizing before with
  | nil => simp [smallsFrom] at h
  | cons c s ih =>
      rcases List.mem_append.1 h with h | h
      · exact ⟨_, _, _, h⟩
      · exact ih h

theorem smalls_smalls (s : List Char) : smalls (smalls s) = smalls s := by
  have hfixed : ∀ s before : List Char,
      (∀ c ∈ s, ∀ before after, smallForm before c after = [c]) → smallsFrom before s = s := by
    intro s before h
    induction s generalizing before with
    | nil => rfl
    | cons c s ih =>
        rw [smallsFrom, h c (by simp), ih _ fun d hd => h d (by simp [hd]), List.singleton_append]
  refine hfixed _ _ fun d hd => ?_
  obtain ⟨before, c, after, hd⟩ := mem_smallsFrom hd
  exact smallForm_of_mem hd

theorem smallsFrom_append_singleton (before s : List Char) (c : Char) :
    ∃ front before', smallsFrom before (s ++ [c]) = front ++ smallForm before' c [] := by
  induction s generalizing before with
  | nil => exact ⟨[], before, by simp [smallsFrom]⟩
  | cons d s ih =>
      obtain ⟨front, before', hfront⟩ := ih (d :: before)
      exact ⟨smallForm before d (s ++ [c]) ++ front, before', by
        rw [List.cons_append, smallsFrom, hfront, List.append_assoc]⟩

theorem trimmed_smalls {s : List Char} (h : Trimmed s) : Trimmed (smalls s) := by
  refine ⟨fun d hd => ?_, fun d hd => ?_⟩
  · cases s with
    | nil => simp [smalls, smallsFrom] at hd
    | cons c s =>
        rw [smalls, smallsFrom, List.head?_append_of_ne_nil _ (smallForm_ne_nil _ c _)] at hd
        exact isBlank_of_mem_smallForm (h.1 c rfl) (List.mem_of_mem_head? hd)
  · cases s using List.reverseRecOn with
    | nil => simp [smalls, smallsFrom] at hd
    | append_singleton s c _ =>
        obtain ⟨front, before, hfront⟩ := smallsFrom_append_singleton [] s c
        rw [smalls, hfront, List.getLast?_append_of_ne_nil _ (smallForm_ne_nil _ c _)] at hd
        exact isBlank_of_mem_smallForm (h.2 c (by simp)) (List.mem_of_mem_getLast? hd)

/-! ## Folds of texts -/

theorem all_isBlank_of_trimStart {s : List Char} (h : (trimStart s).all isBlank = true) :
    s.all isBlank = true := by
  rw [← List.takeWhile_append_dropWhile (p := isBlank) (l := s), List.all_append, Bool.and_eq_true]
  exact ⟨List.all_takeWhile, h⟩

theorem all_isBlank_of_trim {s : List Char} (h : (trim s).all isBlank = true) :
    s.all isBlank = true := by
  apply all_isBlank_of_trimStart
  have hreverse : (trimStart (trimStart s).reverse).all isBlank = true := by
    simpa [trim, trimEnd, trimStart] using h
  simpa using all_isBlank_of_trimStart hreverse

theorem all_isBlank_of_capitals {s : List Char} (h : (capitals s).all isBlank = true) :
    s.all isBlank = true := by
  simp only [capitals, List.all_flatMap, List.all_eq_true] at h ⊢
  intro c hc
  cases hblank : isBlank c with
  | true => rfl
  | false =>
      obtain ⟨d, hd⟩ := List.exists_mem_of_ne_nil _ (capitalForm_ne_nil c)
      have hform := capitalTable.isBlank_of_form (capitalForm_cases c) hblank d hd
      rw [h c hc d hd] at hform
      cases hform

theorem all_isBlank_of_smallsFrom (before : List Char) {s : List Char}
    (h : (smallsFrom before s).all isBlank = true) : s.all isBlank = true := by
  induction s generalizing before with
  | nil => rfl
  | cons c s ih =>
      rw [smallsFrom, List.all_append, Bool.and_eq_true] at h
      rw [List.all_cons, Bool.and_eq_true]
      refine ⟨?_, ih _ h.2⟩
      cases hblank : isBlank c with
      | true => rfl
      | false =>
          obtain ⟨d, hd⟩ := List.exists_mem_of_ne_nil _ (smallForm_ne_nil before c s)
          have hform := isBlank_of_mem_smallForm hblank hd
          rw [List.all_eq_true.1 h.1 d hd] at hform
          cases hform

theorem upper_upper (s : String) : upper (upper s) = upper s := by
  simp [upper, capitals_capitals]

theorem lower_lower (s : String) : lower (lower s) = lower s := by
  simp [lower, smalls_smalls]

theorem strip_strip (s : String) : strip (strip s) = strip s := by
  simp [strip, trim_eq_self (trimmed_trim _)]

theorem strip_upper_strip (s : String) : strip (upper (strip s)) = upper (strip s) := by
  simp [strip, upper, trim_eq_self (trimmed_capitals (trimmed_trim _))]

theorem strip_lower_strip (s : String) : strip (lower (strip s)) = lower (strip s) := by
  simp [strip, lower, trim_eq_self (trimmed_smalls (trimmed_trim _))]

end RuleCheck.Text

namespace RuleCheck.RuleSet

theorem foldText_foldText (rules : RuleSet) (s : String) :
    rules.foldText (rules.foldText s) = rules.foldText s := by
  unfold foldText
  cases rules.has keepBlanksToken <;> cases rules.has capitalsToken <;>
    cases rules.has smallsToken <;>
    simp [Text.upper_upper, Text.lower_lower, Text.strip_strip, Text.strip_upper_strip,
      Text.strip_lower_strip]

theorem all_isBlank_of_foldText {rules : RuleSet} {s : String}
    (h : (rules.foldText s).toList.all Text.isBlank = true) : s.toList.all Text.isBlank = true := by
  have htrimmed : (if rules.has keepBlanksToken then s else Text.strip s).toList.all
      Text.isBlank = true := by
    simp only [foldText] at h
    generalize (if rules.has keepBlanksToken then s else Text.strip s) = trimmed at h ⊢
    split at h
    · exact Text.all_isBlank_of_capitals (by simpa [Text.upper] using h)
    · split at h
      · exact Text.all_isBlank_of_smallsFrom [] (by simpa [Text.lower, Text.smalls] using h)
      · exact h
  split at htrimmed
  · exact htrimmed
  · rw [Text.toList_strip] at htrimmed
    exact Text.all_isBlank_of_trim htrimmed

end RuleCheck.RuleSet
