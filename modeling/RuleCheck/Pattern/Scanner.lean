import RuleCheck.Pattern.Error
import RuleCheck.Pattern.Syntax
import RuleCheck.Text.Letter

/-!
# Reading the text of a pattern

A pattern is read in tokens: single characters, and characters after a backslash.  A backslash at the
very end is noticed as soon as the token before it has been taken.
-/

namespace RuleCheck.Pattern

inductive Token where
  | plain (c : Char)
  | escaped (c : Char)
  deriving DecidableEq, Repr

namespace Token

def chars : Token → List Char
  | plain c => [c]
  | escaped c => ['\\', c]

end Token

/-- What is left of a pattern, and how many characters have been read. -/
structure Scanner where
  rest : List Char
  position : Nat

structure Reading where
  scanner : Scanner
  /-- The settings for the whole pattern. -/
  flags : Flags
  /-- The names of groups. -/
  names : List (String × Nat)
  /-- The widths of the groups that are closed, and the groups that are still open. -/
  widths : List (Option (Nat × Nat))
  /-- The number of groups at the start of the outermost lookbehind that is being read. -/
  lookbehindGroups : Option Nat
  /-- The groups that conditions refer to by number, each with the place of its first one. -/
  conditions : List (Nat × Nat)

/-- Reading a part of a pattern. -/
abbrev Reader := StateT Reading (Except Failure)

namespace Scanner

def next? (s : Scanner) : Option Token :=
  match s.rest with
  | [] => none
  | '\\' :: c :: _ => some (.escaped c)
  | c :: _ => some (.plain c)

/-- The scanner, unless a lone backslash is all that is left. -/
def checked (s : Scanner) : Except Failure Scanner :=
  if s.rest = ['\\'] then .error (.malformed ⟨.endInEscape, some s.position⟩) else .ok s

def advance (s : Scanner) : Except Failure Scanner :=
  match s.next? with
  | none => .ok s
  | some token =>
    let count := token.chars.length
    checked ⟨s.rest.drop count, s.position + count⟩

end Scanner

namespace Reader

def peek : Reader (Option Token) := do
  return (← get).scanner.next?

def position : Reader Nat := do
  return (← get).scanner.position

def setScanner (scanner : Scanner) : Reader Unit :=
  modify fun reading => { reading with scanner := scanner }

def take : Reader (Option Token) := do
  let scanner := (← get).scanner
  setScanner (← scanner.advance)
  return scanner.next?

def accept (c : Char) : Reader Bool := do
  if (← peek) = some (.plain c) then
    let _ ← take
    return true
  else return false

/-- Reports a problem at a number of characters in front of the next token. -/
def fail {α : Type} (problem : Problem) (back : Nat) : Reader α := do
  throw (.malformed ⟨problem, some ((← position) - back)⟩)

/-- Takes characters of a class, at most the given number. -/
def takeWhile (p : Char → Bool) : Nat → Reader (List Char)
  | 0 => return []
  | n + 1 => do
    match ← peek with
    | some (.plain c) =>
      if p c then
        let _ ← take
        return c :: (← takeWhile p n)
      else return []
    | _ => return []

/-- Takes characters up to a terminator, which is taken too; each step takes a token. -/
def takeUntil (terminator : Char) (what : String) : Nat → List Char → Reader (List Char)
  | 0, _ => fail (.missingName what) 0
  | fuel + 1, name => do
    match ← take with
    | none =>
      if name.isEmpty then fail (.missingName what) 0
      else fail (.unterminatedName terminator) name.length
    | some token =>
      if token = .plain terminator then
        if name.isEmpty then fail (.missingName what) 1 else return name
      else takeUntil terminator what fuel (name ++ token.chars)

def untilChar (terminator : Char) (what : String) : Reader (List Char) := do
  takeUntil terminator what ((← get).scanner.rest.length + 1) []

def checkName (name : List Char) : Reader Unit := do
  unless Text.isIdentifier name do
    fail (.badGroupName (String.ofList name)) (name.length + 1)

/-- The number of groups, the whole match included. -/
def groupCount : Reader Nat := do
  return (← get).widths.length + 1

def closedWidth? (group : Nat) : Reader (Option (Nat × Nat)) := do
  return (((← get).widths[group - 1]?).join).filter fun _ => 0 < group

/-- Refuses a reference from inside a lookbehind to a group that is not closed before it. -/
def checkLookbehind (group : Nat) : Reader Unit := do
  match (← get).lookbehindGroups with
  | none => return
  | some count =>
    if (← closedWidth? group).isNone then fail .openGroup 0
    else if count ≤ group then fail .sameLookbehind 0

def openGroup (name : Option (List Char)) : Reader Nat := do
  let group ← groupCount
  modify fun reading => { reading with widths := reading.widths ++ [none] }
  match name with
  | none => return group
  | some chars =>
    let name := String.ofList chars
    match (← get).names.lookup name with
    | some earlier => fail (.redefinedGroup name group earlier) (chars.length + 1)
    | none =>
      modify fun reading => { reading with names := (name, group) :: reading.names }
      return group

def closeGroup (group : Nat) (widths : Nat × Nat) : Reader Unit :=
  modify fun reading => { reading with widths := reading.widths.set (group - 1) (some widths) }

end Reader

end RuleCheck.Pattern
