import RuleCheck.Pattern.Escape
import RuleCheck.Pattern.Scanner

/-!
# Sets of characters in patterns

The part of a pattern between brackets.
-/

namespace RuleCheck.Pattern

def Member.code? : Member → Option Nat
  | .literal code => some code
  | _ => none

def distinctMembers (members : List Member) : List Member :=
  members.foldl (fun kept m => if kept.contains m then kept else kept ++ [m]) []

/-- The node for a set: a set of one code point is that code point. -/
def setNode (negated : Bool) (members : List Member) : Node :=
  match distinctMembers members with
  | [.literal code] => if negated then .notLiteral code else .literal code
  | kept => .set negated kept

namespace Reader

/-- Reports that a set has no end; `start` is the place of its bracket. -/
def failUnterminated {α : Type} (start : Nat) : Reader α := do
  throw (.malformed ⟨.unterminatedSet, some start⟩)

def memberOf : Token → Reader Member
  | .plain c => return .literal c.toNat
  | .escaped c => memberEscape c

/-- Reads the members of a set behind its bracket, which takes at least one character a member. -/
def members (start : Nat) : Nat → List Member → Reader (List Member)
  | 0, _ => failUnterminated start
  | fuel + 1, found => do
    match ← take with
    | none => failUnterminated start
    | some token =>
      if token = .plain ']' && !found.isEmpty then return found
      else
        let low ← memberOf token
        if ← accept '-' then
          match ← take with
          | none => failUnterminated start
          | some (.plain ']') => return found ++ [low, .literal '-'.toNat]
          | some other =>
            let high ← memberOf other
            let bad : Problem :=
              .badRange (String.ofList token.chars) (String.ofList other.chars)
            let back := token.chars.length + 1 + other.chars.length
            match low.code?, high.code? with
            | some low, some high =>
              if high < low then fail bad back
              else members start fuel (found ++ [.range low high])
            | _, _ => fail bad back
        else members start fuel (found ++ [low])

def charSet : Reader Node := do
  let start := (← position) - 1
  let negated ← accept '^'
  let found ← members start ((← get).scanner.rest.length + 1) []
  return setNode negated found

end Reader

end RuleCheck.Pattern
