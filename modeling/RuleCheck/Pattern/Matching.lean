import RuleCheck.Pattern.CharTest
import RuleCheck.Pattern.Parser

/-!
# Matching patterns

A match runs through the nodes of a pattern and hands the place it has reached to what is to match
after it; where there are several ways to go on, the first one that leads to a match is taken.  A
repetition goes round at most as often as it must, once more for every character that is left, and
once without taking a character.
-/

namespace RuleCheck.Pattern

/-- A place in a text: what is before it, in reverse, and what is after it. -/
structure Place where
  before : List Char
  after : List Char
  position : Nat

/-- A place and the ends of groups that have been passed, the last ones first. -/
structure Progress where
  place : Place
  marks : List (Nat × Place)

/-- What is to match after something, and the place where it all ends. -/
abbrev Continuation := Progress → Option Progress

namespace Place

def step? (p : Place) : Option (Char × Place) :=
  match p.after with
  | [] => none
  | c :: after => some (c, ⟨c :: p.before, after, p.position + 1⟩)

/-- The place a number of characters earlier, if there are as many. -/
def back? (p : Place) : Nat → Option Place
  | 0 => some p
  | n + 1 =>
    match p.before with
    | [] => none
    | c :: before => back? ⟨before, c :: p.after, p.position - 1⟩ n

def isAlone (p : Place) : Bool :=
  p.before.isEmpty && p.after.isEmpty

def atBoundary (alphabet : Alphabet) (p : Place) : Bool :=
  p.before.head?.any (alphabet.inClass .word) != p.after.head?.any (alphabet.inClass .word)

def isAt (flags : Flags) (p : Place) : Anchor → Bool
  | .lineStart => p.before.isEmpty || (flags.multiline && p.before.head? == some '\n')
  | .lineEnd =>
    p.after.isEmpty || p.after == ['\n'] || (flags.multiline && p.after.head? == some '\n')
  | .textStart => p.before.isEmpty
  | .textEnd => p.after.isEmpty
  | .boundary => !p.isAlone && p.atBoundary flags.alphabet
  | .noBoundary => !p.isAlone && !p.atBoundary flags.alphabet

end Place

namespace Progress

def takeIf (p : Progress) (test : Char → Bool) (next : Continuation) : Option Progress :=
  match p.place.step? with
  | some (c, place) => if test c then next { p with place := place } else none
  | none => none

/-- Notes that the end of a group has been passed: the start has an even number, the stop an odd. -/
def mark (p : Progress) (number : Nat) : Progress :=
  { p with marks := (number, p.place) :: p.marks }

def groupText? (p : Progress) (group : Nat) : Option (List Char) :=
  match p.marks.lookup (2 * group), p.marks.lookup (2 * group + 1) with
  | some start, some stop =>
    if start.position ≤ stop.position then
      some (start.after.take (stop.position - start.position))
    else none
  | _, _ => none

def takeText (flags : Flags) (next : Continuation) : List Char → Progress → Option Progress
  | [], p => next p
  | c :: rest, p =>
    let same (d : Char) : Bool :=
      if flags.ignoreCase then flags.alphabet.fold c.toNat == flags.alphabet.fold d.toNat
      else c == d
    p.takeIf same (takeText flags next rest)

end Progress

/-- Goes round as often as possible; `last` is where the latest round that was not due began. -/
def greedyRounds (round : Progress → Continuation → Option Progress) (least : Nat)
    (most : Option Nat) (next : Continuation) :
    Nat → Nat → Option Nat → Progress → Option Progress
  | 0, _, _, _ => none
  | fuel + 1, count, last, p =>
    if count < least then
      round p (greedyRounds round least most next fuel (count + 1) last)
    else
      let further :=
        if (most.all fun most => count < most) && last != some p.place.position then
          round p (greedyRounds round least most next fuel (count + 1) (some p.place.position))
        else none
      match further with
      | some found => some found
      | none => next p

def lazyRounds (round : Progress → Continuation → Option Progress) (least : Nat)
    (most : Option Nat) (next : Continuation) :
    Nat → Nat → Option Nat → Progress → Option Progress
  | 0, _, _, _ => none
  | fuel + 1, count, last, p =>
    if count < least then
      round p (lazyRounds round least most next fuel (count + 1) last)
    else
      match next p with
      | some found => some found
      | none =>
        if (most.all fun most => count < most) && last != some p.place.position then
          round p (lazyRounds round least most next fuel (count + 1) (some p.place.position))
        else none

/-- Goes round as often as possible, each round taking the first way that leads through it. -/
def possessiveRounds (round : Progress → Continuation → Option Progress) (least : Nat)
    (most : Option Nat) : Nat → Nat → Option Nat → Progress → Option Progress
  | 0, _, _, _ => none
  | fuel + 1, count, last, p =>
    if count < least then
      match round p some with
      | some q => possessiveRounds round least most fuel (count + 1) last q
      | none => none
    else if (most.all fun most => count < most) && last != some p.place.position then
      match round p some with
      | some q =>
        possessiveRounds round least most fuel (count + 1) (some p.place.position) q
      | none => some p
    else some p

mutual

/-- Matches a node at a place, and then what is to match after it. -/
def Node.run (flags : Flags) : Node → Progress → Continuation → Option Progress
  | .literal code, p, next => p.takeIf (literalHolds flags code) next
  | .notLiteral code, p, next => p.takeIf (fun c => !literalHolds flags code c) next
  | .any, p, next => p.takeIf (fun c => flags.dotAll || c != '\n') next
  | .set negated members, p, next => p.takeIf (setHolds flags negated members) next
  | .anchor place, p, next => if p.place.isAt flags place then next p else none
  | .alternatives branches, p, next => runAny flags branches p next
  | .group index added removed body, p, next =>
    let inner := flags.inGroup added removed
    match index with
    | none => run inner body p next
    | some index =>
      run inner body (p.mark (2 * index)) fun q => next (q.mark (2 * index + 1))
  | .atomic body, p, next =>
    match run flags body p some with
    | some q => next q
    | none => none
  | .repeat kind least most body, p, next =>
    let fuel := least + p.place.after.length + 2
    match kind with
    | .greedy => greedyRounds (run flags body) least most next fuel 0 none p
    | .lazy => lazyRounds (run flags body) least most next fuel 0 none p
    | .possessive =>
      match possessiveRounds (run flags body) least most fuel 0 none p with
      | some q => next q
      | none => none
  | .look behind negated body, p, next =>
    let start := if behind then p.place.back? (width body).1 else some p.place
    let found := start.bind fun place => run flags body { p with place := place } some
    if negated then
      match found with
      | some _ => none
      | none => next p
    else
      match found with
      | some q => next { p with marks := q.marks }
      | none => none
  | .backreference group _ _, p, next =>
    match p.groupText? group with
    | some text => p.takeText flags next text
    | none => none
  | .conditional group yes no, p, next =>
    match p.groupText? group with
    | some _ => run flags yes p next
    | none =>
      match no with
      | some no => run flags no p next
      | none => next p

/-- Matches nodes one after the other, and then what is to match after them. -/
def run (flags : Flags) : List Node → Progress → Continuation → Option Progress
  | [], p, next => next p
  | node :: rest, p, next => node.run flags p fun q => run flags rest q next

def runAny (flags : Flags) : List (List Node) → Progress → Continuation → Option Progress
  | [], _, _ => none
  | branch :: rest, p, next =>
    match run flags branch p next with
    | some found => some found
    | none => runAny flags rest p next

end

/-- The members of a set that stands for the same characters as a branch of one node, if there is one. -/
def plainMembers? : List Node → Option (List Member)
  | [.literal code] => some [.literal code]
  | [.set false members] => some members
  | _ => none

def firstSet? : List Node → Option (Bool × List Member)
  | .set negated members :: _ => some (negated, members)
  | _ => none

/-- The set that all branches start with, or that they amount to together. -/
def branchesSet? (branches : List (List Node)) : Option (Bool × List Member) :=
  match branches.map firstSet? with
  | some first :: rest =>
    if rest.all fun other => other == some first then some first
    else (branches.mapM plainMembers?).map fun sets => (false, sets.flatten)
  | _ => (branches.mapM plainMembers?).map fun sets => (false, sets.flatten)

mutual

/-- The set that a node starts with, unless case is left out of account and matters to it. -/
def Node.leadingSet? (flags : Flags) : Node → Option (Bool × List Member)
  | .set negated members =>
    if flags.ignoreCase && members.any (Member.isCased flags.alphabet) then none
    else some (negated, members)
  | .alternatives branches =>
    (branchesSet? branches).filter fun (_, members) =>
      !(flags.ignoreCase && members.any (Member.isCased flags.alphabet))
  | .group _ added removed body => leadingSet? (flags.inGroup added removed) body
  | _ => none

def leadingSet? (flags : Flags) : List Node → Option (Bool × List Member)
  | node :: _ => node.leadingSet? flags
  | [] => none

end

namespace Compiled

def matchesAt (pattern : Compiled) (place : Place) : Bool :=
  (run pattern.flags pattern.nodes ⟨place, []⟩ some).isSome

/--
Whether a match can start with a character: the set that the pattern starts with is read under the
settings of the whole pattern here, even if it stands in a group with settings of its own.
-/
def mayStartWith (pattern : Compiled) (c : Char) : Bool :=
  match leadingSet? pattern.flags pattern.nodes with
  | some (negated, members) => setHolds { pattern.flags with ignoreCase := false } negated members c
  | none => true

/-- Whether the pattern matches at a place or at one of those after it, so many in all. -/
def matchesFrom (pattern : Compiled) (before : List Char) (position : Nat) :
    Nat → List Char → Bool
  | 0, _ => false
  | _ + 1, [] => pattern.matchesAt ⟨before, [], position⟩
  | places + 1, c :: after =>
    (pattern.mayStartWith c && pattern.matchesAt ⟨before, c :: after, position⟩) ||
      matchesFrom pattern (c :: before) (position + 1) places after

/-- Whether the pattern matches anywhere in a text; only places with enough text left are tried. -/
def occursIn (pattern : Compiled) (text : String) : Bool :=
  let s := text.toList
  pattern.matchesFrom [] 0 (s.length + 1 - (width pattern.nodes).1) s

end Compiled

end RuleCheck.Pattern
