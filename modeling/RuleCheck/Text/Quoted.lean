import RuleCheck.Text.Ranges
import RuleCheck.Text.HiddenTable

/-!
# Quoted texts

A text in quotes, for diagnostics.  The quote is an apostrophe unless the text has apostrophes and
no double quotes.  The quote and the backslash are escaped by a backslash; a character without a
visible form is written by its code point in hexadecimal digits.
-/

namespace RuleCheck.Text

/-- The number in lower-case hexadecimal digits, with zeros in front up to the width. -/
def hexDigits (width n : Nat) : List Char :=
  let digits := Nat.toDigits 16 n
  List.replicate (width - digits.length) '0' ++ digits

def isHidden (c : Char) : Bool :=
  inRanges hiddenRanges c.toNat

def quotedChar (quote c : Char) : List Char :=
  let n := c.toNat
  if c == quote || c == '\\' then ['\\', c]
  else if c == '\t' then ['\\', 't']
  else if c == '\n' then ['\\', 'n']
  else if c == '\r' then ['\\', 'r']
  else if 32 ≤ n && n < 127 then [c]
  else if isHidden c then
    if n < 0x100 then '\\' :: 'x' :: hexDigits 2 n
    else if n < 0x10000 then '\\' :: 'u' :: hexDigits 4 n
    else '\\' :: 'U' :: hexDigits 8 n
  else [c]

/-- The quote for a text: an apostrophe, unless only apostrophes occur in it. -/
def quoteFor (s : List Char) : Char :=
  if s.contains '\'' && !s.contains '"' then '"' else '\''

def quoted (s : String) : String :=
  let quote := quoteFor s.toList
  String.ofList (quote :: s.toList.flatMap (quotedChar quote) ++ [quote])

example : quoted "it's" = "\"it's\"" := by decide +kernel

end RuleCheck.Text
