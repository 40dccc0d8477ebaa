import RuleCheck.Value

/-!
# Equality of values

Scalars are equal by what they denote, whatever class they come from.  Sequences are equal item by
item if both are lists, both tuples or both queues, named tuples counting as tuples; sets and
mappings regardless of order; records if they have one type and equal slots.
-/

namespace RuleCheck

namespace Foreign

def same : Foreign → Foreign → Bool
  | date y m d, date y' m' d' => y == y' && m == m' && d == d'
  | complex re im, complex re' im' =>
    (Scalar.float re).same (.float re') && (Scalar.float im).same (.float im')
  | date .., _ | _, date .. | complex .., _ | _, complex .. => false
  | bytes a, bytes b | bytes a, byteArray b | byteArray a, bytes b | byteArray a, byteArray b =>
    a == b

end Foreign

namespace SequenceKind

def comparable : SequenceKind → SequenceKind → Bool
  | list, list | tuple, tuple | deque, deque => true
  | set, set | set, frozenset | frozenset, set | frozenset, frozenset => true
  | _, _ => false

def isSet : SequenceKind → Bool
  | set | frozenset => true
  | list | tuple | deque => false

end SequenceKind

namespace Value

def tupleItems? : Value → Option (List Value)
  | .sequence .tuple _ items => some items
  | .record head slots => if head.isTuple then some (slots.map Prod.snd) else none
  | _ => none

mutual

def same : Value → Value → Bool
  | .null, other => other.isNull
  | .scalar _ content, other => other.scalar?.any content.same
  | .foreign content, .foreign other => content.same other
  | .member enumeration name _, .member enumeration' name' _ =>
    enumeration == enumeration' && name == name'
  | .sequence kind _ items, other =>
    match kind, other with
    | .tuple, other => other.tupleItems?.any (sameItems items)
    | kind, .sequence kind' _ items' =>
      kind.comparable kind' &&
        if kind.isSet then items.length == items'.length && itemsAmong items items'
        else sameItems items items'
    | _, _ => false
  | .range start stop step, .range start' stop' step' =>
    let count := rangeLength start stop step
    count == rangeLength start' stop' step' &&
      (count == 0 || start == start' && (count == 1 || step == step'))
  | .mapping _ _ entries, .mapping _ _ entries' =>
    entries.length == entries'.length && entriesAmong entries entries'
  | .box content, .box content' => same content content'
  | .record head slots, other =>
    if head.isTuple then other.tupleItems?.any (sameSlots slots)
    else
      match other with
      | .record head' slots' => head == head' && sameSlots slots (slots'.map Prod.snd)
      | _ => false
  | _, _ => false

def sameItems : List Value → List Value → Bool
  | [], others => others.isEmpty
  | value :: items, others =>
    match others with
    | [] => false
    | other :: others => same value other && sameItems items others

def itemsAmong : List Value → List Value → Bool
  | [], _ => true
  | value :: items, others => others.any (same value) && itemsAmong items others

def entriesAmong : List (Value × Value) → List (Value × Value) → Bool
  | [], _ => true
  | (key, value) :: entries, others =>
    (others.any fun (key', value') => same key key' && same value value') &&
      entriesAmong entries others

def sameSlots : List (String × Value) → List Value → Bool
  | [], others => others.isEmpty
  | (_, value) :: slots, others =>
    match others with
    | [] => false
    | other :: others => same value other && sameSlots slots others

end

end Value

end RuleCheck
