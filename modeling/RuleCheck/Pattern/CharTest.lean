import RuleCheck.Pattern.Syntax
import RuleCheck.Text.Blank
import RuleCheck.Text.Case
import RuleCheck.Text.Digit
import RuleCheck.Text.Letter

/-!
# Characters in patterns

Which characters a single code point, a set or a class of a pattern stands for, with and without
regard to case.  Without regard to case a character is compared by its small form and the letters
that count as one letter with it; a set with code points beyond the basic plane is compared partly by
capital forms.
-/

namespace RuleCheck.Pattern

/-- The alphabets that decide which characters are digits, blanks, letters and cased. -/
inductive Alphabet where
  | plain
  | full
  deriving DecidableEq, Repr

namespace Flags

def alphabet (flags : Flags) : Alphabet :=
  if flags.unicode then .full else .plain

end Flags

def basicPlane : Nat := 0xFFFF

namespace Alphabet

def inClass (alphabet : Alphabet) (base : CharClass) (c : Char) : Bool :=
  let n := c.toNat
  match alphabet, base with
  | full, .digit => Text.isDigit c
  | full, .space => Text.isBlank c
  | full, .word => Text.isWordChar c
  | plain, .digit => 48 ≤ n && n ≤ 57
  | plain, .space => n == 32 || (9 ≤ n && n ≤ 13)
  | plain, .word =>
    (48 ≤ n && n ≤ 57) || (65 ≤ n && n ≤ 90) || (97 ≤ n && n ≤ 122) || n == 95

def fold (alphabet : Alphabet) (n : Nat) : Nat :=
  match alphabet with
  | full => Text.smallCode n
  | plain => if 65 ≤ n && n ≤ 90 then n + 32 else n

/-- Whether a code point has another form in the other case. -/
def isCased (alphabet : Alphabet) (n : Nat) : Bool :=
  match alphabet with
  | full => Text.smallCode n != n || Text.capitalCode n != n
  | plain => (65 ≤ n && n ≤ 90) || (97 ≤ n && n ≤ 122)

/-- The folded code points that count as one letter with a folded one, that one left out. -/
def mates (alphabet : Alphabet) (n : Nat) : List Nat :=
  match alphabet with
  | full => (Text.caseMates.lookup n).getD []
  | plain => []

/-- Whether a run of code points has a member between two bounds. -/
def runMeets (low high : Nat) : Nat × Nat × Nat × Int → Bool
  | (first, last, step, _) =>
    let start := first + (low - first + step - 1) / step * step
    start ≤ last && start ≤ high

def rangeIsCased (alphabet : Alphabet) (low high : Nat) : Bool :=
  match alphabet with
  | full =>
    Text.smallRuns.any (runMeets low high) || Text.capitalRuns.any (runMeets low high) ||
      (low ≤ 0x130 && 0x130 ≤ high) ||
      Text.longCapitals.any fun (n, _) => low ≤ n && n ≤ high
  | plain => (low ≤ 90 && 65 ≤ high) || (low ≤ 122 && 97 ≤ high)

def unfolded (alphabet : Alphabet) (n : Nat) : List Nat :=
  match alphabet with
  | full =>
    let own := if Text.smallCode n = n then [n] else []
    let others := Text.smallRuns.filterMap fun (first, last, step, shift) =>
      let m := Int.ofNat n - shift
      if Int.ofNat first ≤ m && m ≤ Int.ofNat last && (m - Int.ofNat first) % Int.ofNat step == 0
      then some m.toNat
      else none
    own ++ others ++ if n = 0x69 then [0x130] else []
  | plain =>
    if 97 ≤ n && n ≤ 122 then [n, n - 32] else if 65 ≤ n && n ≤ 90 then [] else [n]

/-- Whether a range has a code point that counts as one letter with a folded one. -/
def rangeFoldsTo (alphabet : Alphabet) (low high n : Nat) : Bool :=
  (n :: alphabet.mates n).any fun mate =>
    (alphabet.unfolded mate).any fun m => low ≤ m && m ≤ high

end Alphabet

def literalHolds (flags : Flags) (code : Nat) (c : Char) : Bool :=
  let alphabet := flags.alphabet
  if flags.ignoreCase && alphabet.isCased code then
    let folded := alphabet.fold c.toNat
    let own := alphabet.fold code
    folded == own || (alphabet.mates own).contains folded
  else c.toNat == code

namespace Member

/-- Whether case matters to a member when it is to be left out of account. -/
def isCased (alphabet : Alphabet) : Member → Bool
  | literal code => alphabet.isCased code || basicPlane < alphabet.fold code
  | range low high => alphabet.rangeIsCased low high || basicPlane < high
  | category _ _ => false

def holds (alphabet : Alphabet) (c : Char) : Member → Bool
  | literal code => c.toNat == code
  | range low high => low ≤ c.toNat && c.toNat ≤ high
  | category base negated => alphabet.inClass base c != negated

def holdsFolded (alphabet : Alphabet) (folded : Nat) : Member → Bool
  | literal code =>
    let own := alphabet.fold code
    if basicPlane < own then folded == code
    else folded == own || (alphabet.mates own).contains folded
  | range low high =>
    alphabet.rangeFoldsTo low (min high basicPlane) folded ||
      (basicPlane < high &&
        ((low ≤ folded && folded ≤ high) ||
          (low ≤ Text.capitalCode folded && Text.capitalCode folded ≤ high)))
  | category base negated => alphabet.inClass base (Char.ofNat folded) != negated

end Member

def setHolds (flags : Flags) (negated : Bool) (members : List Member) (c : Char) : Bool :=
  let alphabet := flags.alphabet
  let found :=
    if flags.ignoreCase && members.any (Member.isCased alphabet) then
      members.any (Member.holdsFolded alphabet (alphabet.fold c.toNat))
    else members.any (Member.holds alphabet c)
  found != negated

end RuleCheck.Pattern
