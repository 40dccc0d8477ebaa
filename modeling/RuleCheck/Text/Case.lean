import RuleCheck.Text.Ranges
import RuleCheck.Text.Case.Table

/-!
# Capital and small letters

`capitals` and `smalls` fold the case of a whole text.  A character may have a capital form of
several characters, and one has such a small form; a capital sigma at the end of a word has a small
form of its own.  `smallCode` and `capitalCode` are the plain folds of one character to one.
-/

namespace RuleCheck.Text

/-- The image of a code point under a table of runs, if one of the runs holds it. -/
def shifted? (runs : List (Nat × Nat × Nat × Int)) (n : Nat) : Option Nat :=
  (runs.find? fun (first, last, step, _) => first ≤ n && n ≤ last && (n - first) % step == 0).map
    fun (_, _, _, shift) => (Int.ofNat n + shift).toNat

def smallCode (n : Nat) : Nat :=
  if n == 0x130 then 0x69 else (shifted? smallRuns n).getD n

/-- The capital form of a code point as one code point, the first one of a longer form. -/
def capitalCode (n : Nat) : Nat :=
  match longCapitals.find? fun (m, _) => m == n with
  | some (_, first :: _) => first
  | _ => (shifted? capitalRuns n).getD n

def capitalForm (c : Char) : List Char :=
  match longCapitals.find? fun (n, _) => n == c.toNat with
  | some (_, form) => form.map Char.ofNat
  | none => [Char.ofNat (capitalCode c.toNat)]

def capitals (s : List Char) : List Char :=
  s.flatMap capitalForm

/-- Whether the first character that a final sigma does not look through is a cased letter. -/
def meetsCased (s : List Char) : Bool :=
  match s.dropWhile fun c => inRanges ignorableRanges c.toNat with
  | [] => false
  | c :: _ => inRanges casedRanges c.toNat

/--
The whole small form of a character between two texts, the one before it given in reverse.  A capital
sigma after a cased letter and not before one ends a word.
-/
def smallForm (before : List Char) (c : Char) (after : List Char) : List Char :=
  if c.toNat == 0x3A3 then
    if meetsCased before && !meetsCased after then [Char.ofNat 0x3C2] else [Char.ofNat 0x3C3]
  else if c.toNat == 0x130 then ['i', Char.ofNat 0x307]
  else [Char.ofNat (smallCode c.toNat)]

/-- The rest of a text in small letters, after the given text in reverse. -/
def smallsFrom (before : List Char) : List Char → List Char
  | [] => []
  | c :: after => smallForm before c after ++ smallsFrom (c :: before) after

def smalls (s : List Char) : List Char :=
  smallsFrom [] s

def upper (s : String) : String :=
  String.ofList (capitals s.toList)

def lower (s : String) : String :=
  String.ofList (smalls s.toList)

end RuleCheck.Text
