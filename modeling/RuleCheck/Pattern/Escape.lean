import RuleCheck.Pattern.Scanner
import RuleCheck.Text.Digit

/-!
# Escapes in patterns

What a backslash and a character stand for, inside a set of characters and outside of one.
-/

namespace RuleCheck.Pattern

def isOctal (c : Char) : Bool :=
  48 ≤ c.toNat && c.toNat ≤ 55

def hexValue (c : Char) : Nat :=
  let n := c.toNat
  if n ≤ 57 then n - 48 else if n ≤ 70 then n - 55 else n - 87

def isHex (c : Char) : Bool :=
  let n := c.toNat
  (48 ≤ n && n ≤ 57) || (65 ≤ n && n ≤ 70) || (97 ≤ n && n ≤ 102)

def inBase (base : Nat) (digits : List Char) : Nat :=
  digits.foldl (fun n c => base * n + hexValue c) 0

def controlCode? : Char → Option Nat
  | 'a' => some 7
  | 'b' => some 8
  | 'f' => some 12
  | 'n' => some 10
  | 'r' => some 13
  | 't' => some 9
  | 'v' => some 11
  | '\\' => some 92
  | _ => none

/-- The class of characters that an escape stands for, and whether it is the rest of them. -/
def charClass? : Char → Option (CharClass × Bool)
  | 'd' => some (.digit, false)
  | 'D' => some (.digit, true)
  | 's' => some (.space, false)
  | 'S' => some (.space, true)
  | 'w' => some (.word, false)
  | 'W' => some (.word, true)
  | _ => none

def anchor? : Char → Option Anchor
  | 'A' => some .textStart
  | 'b' => some .boundary
  | 'B' => some .noBoundary
  | 'Z' => some .textEnd
  | _ => none

def isPlainLetter (c : Char) : Bool :=
  let n := c.toNat
  (65 ≤ n && n ≤ 90) || (97 ≤ n && n ≤ 122)

namespace Reader

/-- A code point in exactly the given number of hexadecimal digits after the escape. -/
def hexEscape (c : Char) (count : Nat) : Reader Nat := do
  let digits ← takeWhile isHex count
  let escape := '\\' :: c :: digits
  if digits.length < count then
    fail (.incompleteEscape (String.ofList escape)) escape.length
  else
    let code := inBase 16 digits
    if 0x7FFFFFFF < code then throw .codeTooLarge
    else if 0x10FFFF < code then fail (.badEscape (String.ofList escape)) escape.length
    else return code

/-- A character given by its name.  No names are known, so every name is refused. -/
def namedEscape : Reader Nat := do
  unless ← accept '\x7b' do
    fail .missingBrace 0
  let name ← untilChar '\x7d' "character name"
  fail (.unknownCharacterName (String.ofList name)) (name.length + 4)

/-- The code point of the escapes that stand for one wherever they occur. -/
def commonEscape? (c : Char) : Reader (Option Nat) := do
  match c with
  | 'x' => return some (← hexEscape c 2)
  | 'u' => return some (← hexEscape c 4)
  | 'U' => return some (← hexEscape c 8)
  | 'N' => return some (← namedEscape)
  | _ => return none

def plainEscape (c : Char) : Reader Nat := do
  if isPlainLetter c || Text.isPlainDigit c then
    fail (.badEscape (String.ofList ['\\', c])) 2
  else return c.toNat

def memberEscape (c : Char) : Reader Member := do
  match controlCode? c, charClass? c with
  | some code, _ => return .literal code
  | _, some (base, negated) => return .category base negated
  | none, none =>
    match ← commonEscape? c with
    | some code => return .literal code
    | none =>
      if isOctal c then
        let digits := c :: (← takeWhile isOctal 2)
        let escape := '\\' :: digits
        let code := inBase 8 digits
        if 0o377 < code then
          fail (.octalTooLarge (String.ofList escape)) escape.length
        else return .literal code
      else return .literal (← plainEscape c)

/-- A digit other than zero after a backslash: a group again, or a code point in octal digits. -/
def digitEscape (c : Char) : Reader Node := do
  let second ← takeWhile Text.isPlainDigit 1
  let octal := isOctal c && !second.isEmpty && second.all isOctal
  let third ← if octal then takeWhile isOctal 1 else pure []
  let digits := c :: second ++ third
  let escape := '\\' :: digits
  if !third.isEmpty then
    let code := inBase 8 digits
    if 0o377 < code then fail (.octalTooLarge (String.ofList escape)) escape.length
    else return .literal code
  else
    let group := Text.digitsValue digits
    if group < (← groupCount) then
      match ← closedWidth? group with
      | none => fail .openGroup escape.length
      | some (least, most) =>
        checkLookbehind group
        return .backreference group least most
    else fail (.invalidGroup group) (escape.length - 1)

def nodeEscape (c : Char) : Reader Node := do
  match anchor? c, charClass? c, controlCode? c with
  | some place, _, _ => return .anchor place
  | _, some (base, negated), _ => return .set false [.category base negated]
  | _, _, some code => return .literal code
  | none, none, none =>
    match ← commonEscape? c with
    | some code => return .literal code
    | none =>
      if c = '0' then
        return .literal (inBase 8 (← takeWhile isOctal 2))
      else if Text.isPlainDigit c then digitEscape c
      else return .literal (← plainEscape c)

end Reader

end RuleCheck.Pattern
