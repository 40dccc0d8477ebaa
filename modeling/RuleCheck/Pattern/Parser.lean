import RuleCheck.Pattern.CharSet
import RuleCheck.Text.Blank

/-!
# Reading patterns

`Pattern.parse` reads the text of a pattern.  Every step of a sequence and every group takes at least
one character, so twice the length of the text bounds the depth of the calls.
-/

namespace RuleCheck.Pattern

def isSkipped (c : Char) : Bool :=
  c == ' ' || (9 ≤ c.toNat && c.toNat ≤ 13)

/-- The number in a condition: blanks around it, a sign and single underscores are allowed. -/
def conditionNumber? (name : List Char) : Option Int :=
  let body := Text.trim name
  let (negative, digits) :=
    match body with
    | '-' :: rest => (true, rest)
    | '+' :: rest => (false, rest)
    | s => (false, s)
  let plain := digits.filter fun c => c != '_'
  let separated := (digits.zip (digits.drop 1)).all fun (a, b) => !(a == '_' && b == '_')
  if plain.all Text.isDigit && !plain.isEmpty && separated && digits.head? != some '_' &&
      digits.getLast? != some '_' && plain.length ≤ 4300 then
    let n := Int.ofNat (Text.digitsValue plain)
    some (if negative then -n else n)
  else none

namespace Reader

/-- Refuses a second alphabet, or the one that texts do not have. -/
def checkFlag (c : Char) (flag : Flags) (added : Flags) : Reader Flags := do
  if c = 'L' then fail .localeFlag 0
  let added := added.or flag
  if (flag.ascii && added.unicode) || (flag.unicode && added.ascii) then fail .clashingFlags 0
  return added

/-- The setting of a letter in a list of settings, `L` included. -/
def flagOf? (c : Char) : Option Flags :=
  if c = 'L' then some .none else Flags.ofChar? c

/-- Reads the settings that are switched on, the first letter being taken; ends at `)`, `-` or `:`. -/
def flagsOn : Nat → Char → Flags → Reader (Flags × Char)
  | 0, _, _ => fail .missingFlagEnd 0
  | fuel + 1, c, added => do
    let added ← checkFlag c ((flagOf? c).getD .none) added
    match ← take with
    | none => fail .missingFlagEnd 0
    | some (.plain c) =>
      if c = ')' || c = '-' || c = ':' then return (added, c)
      else if (flagOf? c).isSome then flagsOn fuel c added
      else fail (if Text.isLetter c then .unknownFlag else .missingFlagEnd) 1
    | some token => fail .missingFlagEnd token.chars.length

/-- Reads the settings that are switched off, the first letter being taken; ends at `:`. -/
def flagsOff : Nat → Char → Flags → Reader Flags
  | 0, _, _ => fail .missingColon 0
  | fuel + 1, c, removed => do
    let flag := (flagOf? c).getD .none
    if c = 'L' || flag.ascii || flag.unicode then fail .typeFlagOff 0
    let removed := removed.or flag
    match ← take with
    | none => fail .missingColon 0
    | some (.plain c) =>
      if c = ':' then return removed
      else if (flagOf? c).isSome then flagsOff fuel c removed
      else fail (if Text.isLetter c then .unknownFlag else .missingColon) 1
    | some token => fail .missingColon token.chars.length

def flagsOffStart : Reader Flags := do
  match ← take with
  | none => fail .missingFlag 0
  | some (.plain c) =>
    if (flagOf? c).isSome then flagsOff ((← get).scanner.rest.length + 1) c .none
    else fail (if Text.isLetter c then .unknownFlag else .missingFlag) 1
  | some token => fail .missingFlag token.chars.length

/--
Reads settings, the first letter or the minus being taken.  The result is what is switched on and off
in the group that follows, or nothing if the settings are for the whole pattern.
-/
def inlineFlags (c : Char) : Reader (Option (Flags × Flags)) := do
  let (added, ending) ←
    if c = '-' then pure (Flags.none, '-')
    else flagsOn ((← get).scanner.rest.length + 1) c .none
  if ending = ')' then
    modify fun reading => { reading with flags := reading.flags.or added }
    return none
  else
    if added.template then fail .globalFlagOn 1
    let removed ← if ending = '-' then flagsOffStart else pure .none
    if removed.template then fail .globalFlagOff 1
    if added.and removed != .none then fail .flagOnAndOff 1
    return some (added, removed)

/-- A number of repetitions in digits; no digits give none. -/
def repeatCount (digits : List Char) : Reader (Option Nat) := do
  if digits.isEmpty then return none
  else if 4300 < digits.length then throw (.tooManyDigits digits.length)
  else
    let n := Text.digitsValue digits
    if repeatLimit ≤ n then throw .repetitionTooLarge else return some n

/-- The bounds of a repetition behind its brace; none if the brace stands for itself. -/
def braceBounds : Reader (Option (Nat × Option Nat)) := do
  if (← peek) = some (.plain '\x7d') then return none
  let start := (← get).scanner
  let length := start.rest.length
  let low ← takeWhile Text.isPlainDigit length
  let high ← if ← accept ',' then takeWhile Text.isPlainDigit length else pure low
  if ← accept '\x7d' then
    let least := (← repeatCount low).getD 0
    let most ← repeatCount high
    match most with
    | some most =>
      if most < least then
        throw (.malformed ⟨.repeatOrder, some start.position⟩)
      else return some (least, some most)
    | none => return some (least, none)
  else
    setScanner start
    return none

def repeatBounds (c : Char) : Reader (Option (Nat × Option Nat)) := do
  match c with
  | '?' => return some (0, some 1)
  | '*' => return some (0, none)
  | '+' => return some (1, none)
  | _ => braceBounds

/-- What a repetition repeats: a group without number and settings gives its body. -/
def repeatBody : Node → List Node
  | .group none added removed body =>
    if added = .none && removed = .none then body else [.group none added removed body]
  | node => [node]

def isAnchor : Node → Bool
  | .anchor _ => true
  | _ => false

def isRepeat : Node → Bool
  | .repeat .. => true
  | _ => false

/-- Reads the mark of a repetition that takes as little as it can, or gives nothing back. -/
def repeatKind : Reader RepeatKind := do
  if ← accept '?' then return .lazy
  else if ← accept '+' then return .possessive
  else return .greedy

/-- Repeats the last node that was read, the first character of the repetition being taken. -/
def repeated (c : Char) (start : Nat) (found : List Node) : Reader (List Node) := do
  match ← repeatBounds c with
  | none => return .literal c.toNat :: found
  | some (least, most) =>
    match found with
    | [] => throw (.malformed ⟨.nothingToRepeat, some start⟩)
    | node :: earlier =>
      if isAnchor node then throw (.malformed ⟨.nothingToRepeat, some start⟩)
      if isRepeat node then throw (.malformed ⟨.multipleRepeat, some start⟩)
      return .repeat (← repeatKind) least most (repeatBody node) :: earlier

def skipComment (start : Nat) : Nat → Reader Unit
  | 0 => throw (.malformed ⟨.unterminatedComment, some start⟩)
  | fuel + 1 => do
    match ← take with
    | none => throw (.malformed ⟨.unterminatedComment, some start⟩)
    | some token => if token = .plain ')' then return else skipComment start fuel

def skipLine : Nat → Reader Unit
  | 0 => return
  | fuel + 1 => do
    match ← take with
    | none => return
    | some token => if token = .plain '\n' then return else skipLine fuel

/-- A group again by its name, behind the equals sign. -/
def namedBackreference : Reader Node := do
  let chars ← untilChar ')' "group name"
  checkName chars
  let name := String.ofList chars
  match (← get).names.lookup name with
  | none => fail (.unknownGroup name) (chars.length + 1)
  | some group =>
    match ← closedWidth? group with
    | none => fail .openGroup (chars.length + 1)
    | some (least, most) =>
      checkLookbehind group
      return .backreference group least most

def conditionGroup : Reader Nat := do
  let chars ← untilChar ')' "group name"
  let back := chars.length + 1
  let name := String.ofList chars
  let group ←
    if Text.isIdentifier chars then
      match (← get).names.lookup name with
      | none => fail (.unknownGroup name) back
      | some group => pure group
    else
      match conditionNumber? chars with
      | none => fail (.badGroupName name) back
      | some n =>
        if n < 0 then fail (.badGroupName name) back
        else if n = 0 then fail .badGroupNumber back
        else if 2147483647 ≤ n then fail (.invalidGroup n.toNat) back
        else
          let place := (← position) - back
          modify fun reading =>
            if (reading.conditions.lookup n.toNat).isSome then reading
            else { reading with conditions := reading.conditions ++ [(n.toNat, place)] }
          pure n.toNat
  checkLookbehind group
  return group

/-- Takes the parenthesis that ends a group; `start` is the place of the one that opened it. -/
def closeParenthesis (start : Nat) : Reader Unit := do
  unless ← accept ')' do
    throw (.malformed ⟨.unterminatedGroup, some start⟩)

inductive Opening where
  | capture (name : Option (List Char))
  | plain
  | atomic
  | scoped (added removed : Flags)
  | look (behind negated : Bool)
  | condition
  /-- Settings for the whole pattern. -/
  | global
  /-- Nothing more follows. -/
  | comment
  | reference (node : Node)

/-- Reads what follows an opening parenthesis and a question mark; `start` is the former's place. -/
def extension (start : Nat) : Reader Opening := do
  match ← take with
  | none => fail .unexpectedEnd 0
  | some (.plain 'P') =>
    if ← accept '<' then
      let name ← untilChar '>' "group name"
      checkName name
      return .capture (some name)
    else if ← accept '=' then return .reference (← namedBackreference)
    else
      match ← take with
      | none => fail .unexpectedEnd 0
      | some token =>
        fail (.unknownExtension ("?P" ++ String.ofList token.chars)) (token.chars.length + 2)
  | some (.plain ':') => return .plain
  | some (.plain '#') =>
    skipComment start ((← get).scanner.rest.length + 1)
    return .comment
  | some (.plain '=') => return .look false false
  | some (.plain '!') => return .look false true
  | some (.plain '<') =>
    match ← take with
    | none => fail .unexpectedEnd 0
    | some (.plain '=') => return .look true false
    | some (.plain '!') => return .look true true
    | some token =>
      fail (.unknownExtension ("?<" ++ String.ofList token.chars)) (token.chars.length + 2)
  | some (.plain '(') => return .condition
  | some (.plain '>') => return .atomic
  | some token =>
    match token with
    | .plain c =>
      if c = '-' || (flagOf? c).isSome then
        match ← inlineFlags c with
        | none => return .global
        | some (added, removed) => return .scoped added removed
      else fail (.unknownExtension ("?" ++ String.ofList [c])) 2
    | .escaped _ =>
      fail (.unknownExtension ("?" ++ String.ofList token.chars)) (token.chars.length + 1)

mutual

def branches : Nat → Bool → Bool → Bool → Reader (List (List Node))
  | 0, _, _, _ => fail .unexpectedEnd 0
  | fuel + 1, verbose, nested, first => do
    let branch ← sequence fuel verbose first []
    if ← accept '|' then
      let whole := (← get).flags.verbose
      let verbose := if nested then verbose else whole
      let rest ← branches fuel verbose nested false
      return branch :: rest
    else return [branch]

def body : Nat → Bool → Bool → Reader (List Node)
  | 0, _, _ => fail .unexpectedEnd 0
  | fuel + 1, verbose, nested => do
    match ← branches fuel verbose nested (!nested) with
    | [single] => return single
    | several => return [.alternatives several]

/-- Reads nodes up to the end of a branch, after the nodes that are given in reverse. -/
def sequence : Nat → Bool → Bool → List Node → Reader (List Node)
  | 0, _, _, _ => fail .unexpectedEnd 0
  | fuel + 1, verbose, first, found => do
    match ← peek with
    | none => return found.reverse
    | some (.plain '|') => return found.reverse
    | some (.plain ')') => return found.reverse
    | some token =>
      let start ← position
      let _ ← take
      match token with
      | .escaped c => sequence fuel verbose first ((← nodeEscape c) :: found)
      | .plain c =>
        if verbose && isSkipped c then sequence fuel verbose first found
        else if verbose && c = '#' then
          skipLine ((← get).scanner.rest.length + 1)
          sequence fuel verbose first found
        else
          match c with
          | '[' => sequence fuel verbose first ((← charSet) :: found)
          | '*' | '+' | '?' | '\x7b' =>
            sequence fuel verbose first (← repeated c start found)
          | '.' => sequence fuel verbose first (.any :: found)
          | '^' => sequence fuel verbose first (.anchor .lineStart :: found)
          | '$' => sequence fuel verbose first (.anchor .lineEnd :: found)
          | '(' =>
            let opening ← if ← accept '?' then extension start else pure (.capture none)
            match opening with
            | .comment => sequence fuel verbose first found
            | .global =>
              if !first || !found.isEmpty then
                throw (.malformed ⟨.flagsNotFirst, some start⟩)
              sequence fuel (← get).flags.verbose first found
            | opening =>
              let node ← group fuel verbose start opening
              sequence fuel verbose first (node :: found)
          | c => sequence fuel verbose first (.literal c.toNat :: found)

def group : Nat → Bool → Nat → Opening → Reader Node
  | 0, _, _, _ => fail .unexpectedEnd 0
  | fuel + 1, verbose, start, opening => do
    match opening with
    | .reference node => return node
    | .capture name =>
      let index ← openGroup name
      let nodes ← body fuel verbose true
      closeParenthesis start
      closeGroup index (width nodes)
      return .group (some index) .none .none nodes
    | .scoped added removed =>
      let nodes ← body fuel ((verbose || added.verbose) && !removed.verbose) true
      closeParenthesis start
      return .group none added removed nodes
    | .atomic =>
      let nodes ← body fuel verbose true
      closeParenthesis start
      return .atomic nodes
    | .look behind negated =>
      let outer := (← get).lookbehindGroups
      if behind && outer.isNone then
        let count ← groupCount
        modify fun reading => { reading with lookbehindGroups := some count }
      let nodes ← body fuel verbose true
      if behind then
        modify fun reading => { reading with lookbehindGroups := outer }
      closeParenthesis start
      return .look behind negated nodes
    | .condition =>
      let index ← conditionGroup
      let yes ← sequence fuel verbose false []
      let no ←
        if ← accept '|' then
          let no ← sequence fuel verbose false []
          if (← peek) = some (.plain '|') then fail .manyBranches 0
          pure (some no)
        else pure none
      closeParenthesis start
      return .conditional index yes no
    | _ =>
      let nodes ← body fuel verbose true
      closeParenthesis start
      return .group none .none .none nodes

end

/-- The settings for the whole pattern: the alphabet is the large one unless the other is asked for. -/
def wholeFlags : Reader Flags := do
  let flags := (← get).flags
  if flags.ascii && flags.unicode then throw .exclusiveFlags
  else if flags.ascii then return flags
  else return { flags with unicode := true }

def pattern : Reader (Flags × List Node) := do
  let nodes ← body (4 * (← get).scanner.rest.length + 8) false false
  let flags ← wholeFlags
  if (← peek).isSome then fail .unbalanced 0
  let count ← groupCount
  match (← get).conditions.find? fun (group, _) => count ≤ group with
  | some (group, place) => throw (.malformed ⟨.invalidGroup group, some place⟩)
  | none => return (flags, nodes)

end Reader

/-- A pattern that can be matched: its nodes and its settings. -/
structure Compiled where
  flags : Flags
  nodes : List Node

mutual

/-- Checks that lookbehinds have one width and, under the template setting, that nothing repeats. -/
def Node.check (template : Bool) : Node → Except Failure Unit
  | .alternatives branches => checkBranches template branches
  | .group _ _ _ body => check template body
  | .atomic body => check template body
  | .repeat kind _ _ body => do
    if template then
      let operator :=
        match kind with
        | .greedy => "MAX_REPEAT"
        | .lazy => "MIN_REPEAT"
        | .possessive => "POSSESSIVE_REPEAT"
      throw (.malformed ⟨.templateRepeat operator, none⟩)
    check template body
  | .look behind _ body => do
    if behind then
      let (least, most) := width body
      if maxLookbehind < least then throw (.malformed ⟨.farLookbehind, none⟩)
      if least ≠ most then throw (.malformed ⟨.variableLookbehind, none⟩)
    check template body
  | .conditional _ yes no => do
    check template yes
    match no with
    | none => return
    | some no => check template no
  | _ => return

def check (template : Bool) : List Node → Except Failure Unit
  | [] => return
  | node :: rest => do
    node.check template
    check template rest

def checkBranches (template : Bool) : List (List Node) → Except Failure Unit
  | [] => return
  | branch :: rest => do
    check template branch
    checkBranches template rest

end

def parse (text : String) : Except Failure Compiled := do
  let scanner ← Scanner.checked ⟨text.toList, 0⟩
  let reading : Reading := ⟨scanner, .none, [], [], none, []⟩
  let ((flags, nodes), _) ← Reader.pattern.run reading
  check flags.template nodes
  return ⟨flags, nodes⟩

end RuleCheck.Pattern
