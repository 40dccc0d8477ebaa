import RuleCheck.Failure
import RuleCheck.Proofs.Text.Digits
import RuleCheck.Text.Letter

/-! # Paths are read back from their expressions

In the expression of a path a point or a bracket starts every segment but the first one, and neither of them
stands inside the name of a field or behind the bracket of an index.  So the expression is read back as the path
that it was made of, and different positions below records and sequences have different expressions.
-/

namespace RuleCheck

namespace Path

/-- The segments of the fields of records and of the items of sequences. -/
inductive IsPlain : String → Prop
  | name {text : String} (h : Text.isIdentifier text.toList = true) : IsPlain text
  | index (i : Nat) : IsPlain (Path.index i)

/-! ## Reading an expression -/

/-- The segments that start with some characters, which are no segment if there are none. -/
def lead (first : List Char) (others : List (List Char)) : List (List Char) :=
  if first.isEmpty then others else first :: others

/-- The characters up to the start of the next segment, and the segments from there on. -/
def scan : List Char → List Char × List (List Char)
  | [] => ([], [])
  | c :: rest =>
    let (first, others) := scan rest
    if c = '.' then ([], lead first others)
    else if c = '[' then ([], (c :: first) :: others)
    else (c :: first, others)

def ofLocation (text : String) : List String :=
  let (first, others) := scan text.toList
  (lead first others).map String.ofList

theorem lead_of_ne_nil {first : List Char} (h : first ≠ []) (others : List (List Char)) :
    lead first others = first :: others := by
  simp [lead, h]

/-- Characters that start no segment belong to the one that is being read. -/
theorem scan_append {front : List Char} (h : ∀ c ∈ front, c ≠ '.' ∧ c ≠ '[') (rest : List Char) :
    scan (front ++ rest) = (front ++ (scan rest).1, (scan rest).2) := by
  induction front with
  | nil => rfl
  | cons c front ih =>
      have hc := h c List.mem_cons_self
      have hrest := ih fun d hd => h d (List.mem_cons_of_mem c hd)
      simp only [List.cons_append, scan, hrest, hc.1, hc.2, if_false]

/-! ## The characters of segments -/

theorem startsIdentifier_separators :
    Text.startsIdentifier '.' = false ∧ Text.startsIdentifier '[' = false := by
  decide +kernel

theorem continuesIdentifier_separators :
    Text.continuesIdentifier '.' = false ∧ Text.continuesIdentifier '[' = false := by
  decide +kernel

theorem separates_of_isIdentifier {chars : List Char} (h : Text.isIdentifier chars = true) :
    chars ≠ [] ∧ ∀ c ∈ chars, c ≠ '.' ∧ c ≠ '[' := by
  cases chars with
  | nil => cases h
  | cons first rest =>
      simp only [Text.isIdentifier, Bool.and_eq_true, List.all_eq_true] at h
      refine ⟨List.cons_ne_nil first rest, fun c hc => ?_⟩
      rcases List.mem_cons.1 hc with rfl | hc
      · constructor
        · rintro rfl
          exact absurd h.1 (by simp [startsIdentifier_separators.1])
        · rintro rfl
          exact absurd h.1 (by simp [startsIdentifier_separators.2])
      · have hinner := h.2 c hc
        constructor
        · rintro rfl
          exact absurd hinner (by simp [continuesIdentifier_separators.1])
        · rintro rfl
          exact absurd hinner (by simp [continuesIdentifier_separators.2])

def behindBracket (i : Nat) : List Char :=
  Nat.toDigits 10 i ++ [']']

theorem toList_index (i : Nat) : (index i).toList = '[' :: behindBracket i := by
  simp [index, behindBracket, Number.toList_natText]

theorem separates_behindBracket (i : Nat) : ∀ c ∈ behindBracket i, c ≠ '.' ∧ c ≠ '[' := by
  intro c hc
  rcases List.mem_append.1 hc with hdigit | hclose
  · have hplain := Text.isPlainDigit_of_mem_toDigits hdigit
    constructor
    · rintro rfl
      exact absurd hplain (by decide)
    · rintro rfl
      exact absurd hplain (by decide)
  · rw [List.mem_singleton.1 hclose]
    decide

/-! ## Expressions as characters -/

def joined (segment : String) : List Char :=
  if Text.startsWith segment "[" then segment.toList else '.' :: segment.toList

theorem startsWith_bracket {segment : String} :
    Text.startsWith segment "[" = (segment.toList.head? == some '[') := by
  have hopen : "[".toList = ['['] := rfl
  cases hchars : segment.toList with
  | nil => simp [Text.startsWith, Text.after?, Text.dropFront?, hopen, hchars]
  | cons c rest =>
      by_cases hc : c = '['
      · simp [Text.startsWith, Text.after?, Text.dropFront?, hopen, hchars, hc]
      · simp [Text.startsWith, Text.after?, Text.dropFront?, hopen, hchars, hc, Ne.symm hc]

theorem joined_name {text : String} (h : Text.isIdentifier text.toList = true) :
    joined text = '.' :: text.toList := by
  have hne : text.toList.head? ≠ some '[' := by
    intro hhead
    exact (separates_of_isIdentifier h).2 '[' (List.mem_of_mem_head? hhead) |>.2 rfl
  simp [joined, startsWith_bracket, hne]

theorem joined_index (i : Nat) : joined (index i) = '[' :: behindBracket i := by
  simp [joined, startsWith_bracket, toList_index]

theorem IsPlain.ne_empty {segment : String} (h : IsPlain segment) : segment ≠ "" := by
  rintro rfl
  generalize hempty : "" = segment at h
  cases h with
  | name h => exact (separates_of_isIdentifier h).1 (by simp [← hempty])
  | index i =>
      have hchars := toList_index i
      rw [← hempty] at hchars
      cases hchars

/-- From a text that is not empty the rest of a path is written segment by segment. -/
theorem toList_foldl_location (path : List String) {text : String} (htext : text ≠ "") :
    (path.foldl
      (fun text segment =>
        if Text.startsWith segment "[" then text ++ segment
        else if text == "" then segment
        else text ++ "." ++ segment) text).toList = text.toList ++ path.flatMap joined := by
  induction path generalizing text with
  | nil => simp
  | cons segment path ih =>
      have hbegun : (text == "") = false := beq_eq_false_iff_ne.2 htext
      rw [List.foldl_cons, List.flatMap_cons]
      by_cases hbracket : Text.startsWith segment "[" = true
      · have hlonger : text ++ segment ≠ "" := by simp [htext]
        simp only [hbracket, if_true, joined]
        rw [ih hlonger, String.toList_append, List.append_assoc]
      · have hlonger : text ++ "." ++ segment ≠ "" := by simp
        simp only [hbracket, hbegun, if_false, joined, Bool.false_eq_true]
        rw [ih hlonger, String.toList_append, String.toList_append]
        simp

theorem toList_location {segment : String} (h : segment ≠ "") (path : List String) :
    (location (segment :: path)).toList = segment.toList ++ path.flatMap joined := by
  have hfirst : location (segment :: path) = _ := List.foldl_cons
  have hstart : ("" : String) ++ segment = segment := String.empty_append
  rw [hfirst, hstart, beq_self_eq_true, if_pos rfl, ite_self]
  exact toList_foldl_location path h

/-! ## Reading back -/

theorem scan_joined {segment : String} (h : IsPlain segment) {rest : List Char}
    {others : List (List Char)} (hrest : scan rest = ([], others)) :
    scan (joined segment ++ rest) = ([], segment.toList :: others) := by
  cases h with
  | name h =>
      have hchars := separates_of_isIdentifier h
      rw [joined_name h, List.cons_append]
      simp only [scan, scan_append hchars.2, hrest, List.append_nil, lead_of_ne_nil hchars.1, if_true]
  | index i =>
      rw [joined_index, toList_index, List.cons_append]
      simp [scan, scan_append (separates_behindBracket i), hrest]

theorem scan_flatMap_joined {path : List String} (h : ∀ segment ∈ path, IsPlain segment) :
    scan (path.flatMap joined) = ([], path.map String.toList) := by
  induction path with
  | nil => rfl
  | cons segment path ih =>
      have hrest := ih fun other hother => h other (List.mem_cons_of_mem segment hother)
      exact scan_joined (h segment List.mem_cons_self) hrest

theorem scan_first {segment : String} (h : IsPlain segment) {rest : List Char}
    {others : List (List Char)} (hrest : scan rest = ([], others)) :
    lead (scan (segment.toList ++ rest)).1 (scan (segment.toList ++ rest)).2 = segment.toList :: others := by
  cases h with
  | name h =>
      have hchars := separates_of_isIdentifier h
      rw [scan_append hchars.2, hrest, List.append_nil, lead_of_ne_nil hchars.1]
  | index i =>
      have hjoined : joined (index i) = (index i).toList := by rw [joined_index, toList_index]
      rw [← hjoined, scan_joined (.index i) hrest, hjoined]
      rfl

/-- A path below records and sequences is read back from its expression. -/
theorem ofLocation_location {path : List String} (h : ∀ segment ∈ path, IsPlain segment) :
    ofLocation (location path) = path := by
  cases path with
  | nil => rfl
  | cons segment path =>
      have hsegment := h segment List.mem_cons_self
      have hrest := scan_flatMap_joined fun other hother => h other (List.mem_cons_of_mem segment hother)
      have hread : ofLocation (location (segment :: path)) =
          (segment.toList :: path.map String.toList).map String.ofList := by
        unfold ofLocation
        rw [toList_location hsegment.ne_empty]
        exact congrArg (List.map String.ofList) (scan_first hsegment hrest)
      rw [hread, ← List.map_cons, List.map_map]
      exact List.map_id'' (fun text => String.ofList_toList) (segment :: path)

example : ofLocation "[1].A[12].I" = ["[1]", "A", "[12]", "I"] := by decide +kernel

end Path

namespace Failure

/-- The failures that were refused somewhere below records and sequences, and are seen from the top. -/
inductive Rises : Failure → Prop
  | here (reason : Reason) : Rises ⟨reason, []⟩
  | under {failure : Failure} {segment : String} (h : Rises failure)
      (hsegment : Path.IsPlain segment) : Rises (failure.under segment)

theorem Rises.path_isPlain {failure : Failure} (h : failure.Rises) :
    ∀ segment ∈ failure.path, Path.IsPlain segment := by
  induction h with
  | here reason =>
      intro segment hsegment
      cases hsegment
  | under h hsegment ih => exact List.forall_mem_cons.2 ⟨hsegment, ih⟩

/-- Failures below records and sequences that are shown at the same place have the same path. -/
theorem path_eq_of_location_eq {failure other : Failure} (h : failure.Rises) (hother : other.Rises)
    (hlocation : Path.location failure.path = Path.location other.path) : failure.path = other.path := by
  rw [← Path.ofLocation_location h.path_isPlain, hlocation, Path.ofLocation_location hother.path_isPlain]

def itemField (reason : Reason) : Failure :=
  (((Failure.mk reason []).under "I").under (Path.index 1)).under "A"

theorem path_eq_of_location_eq_itemField :
    ((itemField .missing).Rises ∧ (itemField .negative).Rises ∧
      Path.location (itemField .missing).path = "A[1].I" ∧
      Path.location (itemField .negative).path = "A[1].I") ∧
    (itemField .missing).path = (itemField .negative).path := by
  have hrises (reason : Reason) : (itemField reason).Rises := by
    have hname : Path.IsPlain "I" := .name (by decide +kernel)
    have houter : Path.IsPlain "A" := .name (by decide +kernel)
    exact .under (.under (.under (.here reason) hname) (.index 1)) houter
  have hlocation (reason : Reason) : Path.location (itemField reason).path = "A[1].I" := by
    show Path.location ["A", Path.index 1, "I"] = "A[1].I"
    decide +kernel
  exact ⟨⟨hrises .missing, hrises .negative, hlocation .missing, hlocation .negative⟩,
    path_eq_of_location_eq (hrises .missing) (hrises .negative)
      ((hlocation .missing).trans (hlocation .negative).symm)⟩

end Failure

end RuleCheck
