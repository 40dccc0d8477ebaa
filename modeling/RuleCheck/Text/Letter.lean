import RuleCheck.Text.IdentifierTable
import RuleCheck.Text.LetterTable
import RuleCheck.Text.Ranges

/-!
# Letters, word characters and identifiers

Letters and numbers of all scripts; with the underscore they make up words.  Identifiers are words
of a slightly different alphabet that do not start with a number.
-/

namespace RuleCheck.Text

def isLetter (c : Char) : Bool :=
  inRanges letterRanges c.toNat

def isLetterOrNumber (c : Char) : Bool :=
  isLetter c || inRanges numberRanges c.toNat

/-- Whether a character belongs to a word: a letter, a number or the underscore. -/
def isWordChar (c : Char) : Bool :=
  c == '_' || isLetterOrNumber c

def startsIdentifier (c : Char) : Bool :=
  inRanges initialExtras c.toNat || (isLetter c && !inRanges initialExceptions c.toNat)

def continuesIdentifier (c : Char) : Bool :=
  inRanges innerExtras c.toNat || (isLetterOrNumber c && !inRanges innerExceptions c.toNat)

def isIdentifier : List Char → Bool
  | [] => false
  | c :: rest => startsIdentifier c && rest.all continuesIdentifier

end RuleCheck.Text
