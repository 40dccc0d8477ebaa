/-!
# Patterns

A pattern is a list of nodes that match one after the other.  Characters are code points, which need
not be those of characters.  `width` is the least and the greatest number of characters that nodes
match, both capped.
-/

namespace RuleCheck.Pattern

structure Flags where
  ignoreCase : Bool
  multiline : Bool
  dotAll : Bool
  verbose : Bool
  ascii : Bool
  unicode : Bool
  template : Bool
  deriving DecidableEq, Repr

namespace Flags

def none : Flags := ⟨false, false, false, false, false, false, false⟩

def or (a b : Flags) : Flags :=
  ⟨a.ignoreCase || b.ignoreCase, a.multiline || b.multiline, a.dotAll || b.dotAll,
    a.verbose || b.verbose, a.ascii || b.ascii, a.unicode || b.unicode, a.template || b.template⟩

def diff (a b : Flags) : Flags :=
  ⟨a.ignoreCase && !b.ignoreCase, a.multiline && !b.multiline, a.dotAll && !b.dotAll,
    a.verbose && !b.verbose, a.ascii && !b.ascii, a.unicode && !b.unicode,
    a.template && !b.template⟩

def and (a b : Flags) : Flags :=
  ⟨a.ignoreCase && b.ignoreCase, a.multiline && b.multiline, a.dotAll && b.dotAll,
    a.verbose && b.verbose, a.ascii && b.ascii, a.unicode && b.unicode, a.template && b.template⟩

/-- The settings inside a group: those of an alphabet replace one another. -/
def inGroup (flags added removed : Flags) : Flags :=
  let base :=
    if added.ascii || added.unicode then { flags with ascii := false, unicode := false } else flags
  (base.or added).diff removed

def ofChar? : Char → Option Flags
  | 'i' => some { none with ignoreCase := true }
  | 'm' => some { none with multiline := true }
  | 's' => some { none with dotAll := true }
  | 'x' => some { none with verbose := true }
  | 'a' => some { none with ascii := true }
  | 'u' => some { none with unicode := true }
  | 't' => some { none with template := true }
  | _ => Option.none

end Flags

inductive CharClass where
  | digit
  | space
  | word
  deriving DecidableEq, Repr

inductive Member where
  | literal (code : Nat)
  | range (low high : Nat)
  | category (base : CharClass) (negated : Bool)
  deriving DecidableEq, Repr

inductive Anchor where
  | lineStart
  | lineEnd
  | textStart
  | textEnd
  | boundary
  | noBoundary
  deriving DecidableEq, Repr

inductive RepeatKind where
  | greedy
  | lazy
  | possessive
  deriving DecidableEq, Repr

inductive Node where
  | literal (code : Nat)
  | notLiteral (code : Nat)
  | any
  | set (negated : Bool) (members : List Member)
  | anchor (place : Anchor)
  | alternatives (branches : List (List Node))
  | group (index : Option Nat) (added removed : Flags) (body : List Node)
  | atomic (body : List Node)
  | repeat (kind : RepeatKind) (least : Nat) (most : Option Nat) (body : List Node)
  | look (behind negated : Bool) (body : List Node)
  /-- The text of a group again; the widths of the group are kept. -/
  | backreference (group least most : Nat)
  | conditional (group : Nat) (yes : List Node) (no : Option (List Node))
  deriving Repr

def maxWidth : Nat := Nat.pow 2 64

/-- The greatest number of characters that a pattern may look behind. -/
def maxLookbehind : Nat := Nat.pow 2 32 - 1

def repeatLimit : Nat := Nat.pow 2 32 - 1

mutual

/-- The least and the greatest number of characters that a node matches. -/
def Node.width : Node → Nat × Nat
  | .literal _ => (1, 1)
  | .notLiteral _ => (1, 1)
  | .any => (1, 1)
  | .set _ _ => (1, 1)
  | .anchor _ => (0, 0)
  | .alternatives branches => branchesWidth branches
  | .group _ _ _ body => width body
  | .atomic body => width body
  | .repeat _ least most body =>
    let (i, j) := width body
    (i * least,
      match most with
      | some most => j * most
      | none => if j = 0 then 0 else maxWidth)
  | .look _ _ _ => (0, 0)
  | .backreference _ least most => (least, most)
  | .conditional _ yes no =>
    let (i, j) := width yes
    match no with
    | none => (0, j)
    | some no =>
      let (l, h) := width no
      (min i l, max j h)

/-- The least and the greatest number of characters that nodes match one after the other. -/
def width : List Node → Nat × Nat
  | [] => (0, 0)
  | node :: rest =>
    let (i, j) := node.width
    let (l, h) := width rest
    (min (i + l) maxWidth, min (j + h) maxWidth)

/-- The least and the greatest number of characters that one of several branches matches. -/
def branchesWidth : List (List Node) → Nat × Nat
  | [] => (maxWidth, 0)
  | branch :: rest =>
    let (i, j) := width branch
    let (l, h) := branchesWidth rest
    (min i l, max j h)

end

end RuleCheck.Pattern
