/-!
# Cutting and joining texts

`cut` cuts a text at every occurrence of a separator, `after?` takes a front off a text.
-/

namespace RuleCheck.Text

/-- The pieces of a text between the separators; there is always at least one. -/
def cut (separator : Char) : List Char → List (List Char)
  | [] => [[]]
  | c :: s =>
    if c = separator then [] :: cut separator s
    else
      match cut separator s with
      | [] => [[c]]
      | piece :: pieces => (c :: piece) :: pieces

def cutString (separator : Char) (s : String) : List String :=
  (cut separator s.toList).map String.ofList

def dropFront? : List Char → List Char → Option (List Char)
  | [], s => some s
  | _ :: _, [] => none
  | a :: front, c :: s => if a = c then dropFront? front s else none

def after? (front s : String) : Option String :=
  (dropFront? front.toList s.toList).map String.ofList

def startsWith (s front : String) : Bool :=
  (after? front s).isSome

/-- What follows a front, if the text starts with it and goes on. -/
def argument? (front s : String) : Option String :=
  (after? front s).filter fun rest => rest != ""

theorem cut_ne_nil (separator : Char) (s : List Char) : cut separator s ≠ [] := by
  cases s with
  | nil => simp [cut]
  | cons c s =>
    unfold cut
    split
    · simp
    · split <;> simp

theorem dropFront?_eq_some_iff {front s rest : List Char} :
    dropFront? front s = some rest ↔ s = front ++ rest := by
  induction front generalizing s with
  | nil => simp [dropFront?]
  | cons a front ih =>
    cases s with
    | nil => simp [dropFront?]
    | cons c s =>
      by_cases h : a = c
      · simp [dropFront?, h, ih]
      · simp [dropFront?, h, Ne.symm h]

theorem after?_eq_some_iff {front s rest : String} :
    after? front s = some rest ↔ s = front ++ rest := by
  unfold after?
  rw [Option.map_eq_some_iff]
  constructor
  · rintro ⟨tail, htail, rfl⟩
    apply String.toList_inj.1
    simp [dropFront?_eq_some_iff.1 htail]
  · rintro rfl
    exact ⟨rest.toList, dropFront?_eq_some_iff.2 (by simp), by simp⟩

example : cutString ',' "a,,b" = ["a", "", "b"] := by decide +kernel

end RuleCheck.Text
