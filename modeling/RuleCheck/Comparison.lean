import RuleCheck.Text.Cut

/-!
# Comparison tokens

A comparison token is a key, an operator and a literal without anything in between, such as `len<=32`.
`Comparison.split` takes a token apart at its key: the operator is the next character and an equals
sign after it, if there is one.  A token that does not start with the key, or that has at most one
character after it, is no comparison.
-/

namespace RuleCheck

inductive Operator where
  | le
  | lt
  | ge
  | gt
  | ne
  | eq
  deriving DecidableEq, Repr

namespace Operator

/-- The operator with the given first character, followed by an equals sign or not. -/
def ofChar? : Char → Bool → Option Operator
  | '<', true => some le
  | '<', false => some lt
  | '>', true => some ge
  | '>', false => some gt
  | '!', true => some ne
  | '=', true => some eq
  | _, _ => none

def symbol : Operator → String
  | le => "<="
  | lt => "<"
  | ge => ">="
  | gt => ">"
  | ne => "!="
  | eq => "=="

def ofSymbol? (symbol : String) : Option Operator :=
  [le, lt, ge, gt, ne, eq].find? fun op => op.symbol == symbol

/-- What the operator demands of a number, a length or a text. -/
def phrase : Operator → String
  | le => "must be less than or equal to"
  | lt => "must be less than"
  | ge => "must be greater than or equal to"
  | gt => "must be greater than"
  | ne => "must not equal"
  | eq => "must equal"

def timePhrase : Operator → String
  | le => "must be earlier than or equal to"
  | lt => "must be earlier than"
  | ge => "must be later than or equal to"
  | gt => "must be later than"
  | ne => "must not equal"
  | eq => "must equal"

/-- Whether the operator holds of two sides that are in order, equal, and in reverse order, as told. -/
def holds (op : Operator) (less equal greater : Bool) : Bool :=
  match op with
  | le => less || equal
  | lt => less
  | ge => greater || equal
  | gt => greater
  | ne => !equal
  | eq => equal

def holdsInt (op : Operator) (a b : Int) : Bool :=
  op.holds (a < b) (a == b) (b < a)

end Operator

/-- A comparison token taken apart; the literal is still text. -/
structure Comparison where
  key : String
  op : Operator
  literal : String
  token : String
  deriving DecidableEq, Repr

structure UnknownOperator where
  text : String
  deriving DecidableEq, Repr

namespace Comparison

/-- The first character after the key, whether an equals sign follows it, and the rest. -/
def splitOperator? : List Char → Option (Char × Bool × List Char)
  | c :: '=' :: literal => some (c, true, literal)
  | c :: d :: literal => some (c, false, d :: literal)
  | _ => none

/-- Takes a token apart at a key; `none` if it is no comparison of that key. -/
def split (token key : String) : Except UnknownOperator (Option Comparison) :=
  match (Text.after? key token).bind fun rest => splitOperator? rest.toList with
  | none => .ok none
  | some (c, equals, literal) =>
    match Operator.ofChar? c equals with
    | some op => .ok (some ⟨key, op, String.ofList literal, token⟩)
    | none => .error ⟨String.ofList (if equals then [c, '='] else [c])⟩

/-- What the comparison demands, with the threshold as it is to be shown. -/
def describe (c : Comparison) (threshold : String) (time : Bool) : String :=
  let text := (if time then c.op.timePhrase else c.op.phrase) ++ " " ++ threshold
  -- every key but `val` constrains a length
  if c.key == "val" then text else "length " ++ text

end Comparison

end RuleCheck
