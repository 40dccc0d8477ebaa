import RuleCheck.Number.DecimalText
import RuleCheck.Text.Quoted

/-!
# Malformed patterns

Why the text of a pattern is not a pattern, and where.  The place is a number of characters from the
start; if the text has several lines, line and column are told as well.
-/

namespace RuleCheck.Pattern

inductive Problem where
  | endInEscape
  | incompleteEscape (escape : String)
  | badEscape (escape : String)
  | missingBrace
  | missingName (what : String)
  | unterminatedName (terminator : Char)
  | unknownCharacterName (name : String)
  | octalTooLarge (escape : String)
  | openGroup
  | sameLookbehind
  | invalidGroup (group : Nat)
  | unterminatedSet
  | badRange (low high : String)
  | repeatOrder
  | nothingToRepeat
  | multipleRepeat
  | unexpectedEnd
  | badGroupName (name : String)
  | unknownGroup (name : String)
  | redefinedGroup (name : String) (group earlier : Nat)
  | badGroupNumber
  | manyBranches
  | unterminatedComment
  | unterminatedGroup
  | unknownExtension (text : String)
  | flagsNotFirst
  | localeFlag
  | clashingFlags
  | unknownFlag
  | missingFlagEnd
  | missingFlag
  | missingColon
  | globalFlagOn
  | globalFlagOff
  | typeFlagOff
  | flagOnAndOff
  | unbalanced
  | variableLookbehind
  | farLookbehind
  | templateRepeat (operator : String)
  deriving DecidableEq, Repr

namespace Problem

def message : Problem → String
  | endInEscape => "bad escape (end of pattern)"
  | incompleteEscape escape => "incomplete escape " ++ escape
  | badEscape escape => "bad escape " ++ escape
  | missingBrace => "missing \x7b"
  | missingName what => "missing " ++ what
  | unterminatedName terminator =>
      "missing " ++ String.ofList [terminator] ++ ", unterminated name"
  | unknownCharacterName name => "undefined character name " ++ Text.quoted name
  | octalTooLarge escape => "octal escape value " ++ escape ++ " outside of range 0-0o377"
  | openGroup => "cannot refer to an open group"
  | sameLookbehind => "cannot refer to group defined in the same lookbehind subpattern"
  | invalidGroup group => "invalid group reference " ++ Number.natText group
  | unterminatedSet => "unterminated character set"
  | badRange low high => "bad character range " ++ low ++ "-" ++ high
  | repeatOrder => "min repeat greater than max repeat"
  | nothingToRepeat => "nothing to repeat"
  | multipleRepeat => "multiple repeat"
  | unexpectedEnd => "unexpected end of pattern"
  | badGroupName name => "bad character in group name " ++ Text.quoted name
  | unknownGroup name => "unknown group name " ++ Text.quoted name
  | redefinedGroup name group earlier =>
      "redefinition of group name " ++ Text.quoted name ++ " as group " ++
        Number.natText group ++ "; was group " ++ Number.natText earlier
  | badGroupNumber => "bad group number"
  | manyBranches => "conditional backref with more than two branches"
  | unterminatedComment => "missing ), unterminated comment"
  | unterminatedGroup => "missing ), unterminated subpattern"
  | unknownExtension text => "unknown extension " ++ text
  | flagsNotFirst => "global flags not at the start of the expression"
  | localeFlag => "bad inline flags: cannot use 'L' flag with a str pattern"
  | clashingFlags => "bad inline flags: flags 'a', 'u' and 'L' are incompatible"
  | unknownFlag => "unknown flag"
  | missingFlagEnd => "missing -, : or )"
  | missingFlag => "missing flag"
  | missingColon => "missing :"
  | globalFlagOn => "bad inline flags: cannot turn on global flag"
  | globalFlagOff => "bad inline flags: cannot turn off global flag"
  | typeFlagOff => "bad inline flags: cannot turn off flags 'a', 'u' and 'L'"
  | flagOnAndOff => "bad inline flags: flag turned on and off"
  | unbalanced => "unbalanced parenthesis"
  | variableLookbehind => "look-behind requires fixed-width pattern"
  | farLookbehind => "looks too much behind"
  | templateRepeat operator => "internal: unsupported template operator " ++ operator

end Problem

structure Malformed where
  problem : Problem
  position : Option Nat
  deriving DecidableEq, Repr

namespace Malformed

def message (m : Malformed) (text : String) : String :=
  match m.position with
  | none => m.problem.message
  | some position =>
    let base := m.problem.message ++ " at position " ++ Number.natText position
    let s := text.toList
    if s.contains '\n' then
      let front := s.take position
      let line := front.count '\n' + 1
      let column := (front.reverse.takeWhile (· != '\n')).length + 1
      base ++ " (line " ++ Number.natText line ++ ", column " ++ Number.natText column ++ ")"
    else base

end Malformed

inductive Failure where
  | malformed (reason : Malformed)
  /-- A repetition count is beyond all bounds. -/
  | repetitionTooLarge
  /-- A repetition count has more digits than are read. -/
  | tooManyDigits (count : Nat)
  /-- An escape gives a code point that does not even fit 32 bits with a sign. -/
  | codeTooLarge
  /-- Two flags given for the whole pattern exclude each other. -/
  | exclusiveFlags
  deriving DecidableEq, Repr

end RuleCheck.Pattern
