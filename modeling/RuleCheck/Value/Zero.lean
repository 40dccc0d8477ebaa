import RuleCheck.Value

/-!
# Zero values

A value is zero if it is missing, empty, the zero of its kind of scalar, an empty box, or a record
whose slots are all zero.  A member of an enumeration is as zero as the value it stands for, except
that one standing for the missing value, or for another member, is not zero.
-/

namespace RuleCheck.Value

/-- Whether what a member of an enumeration stands for is zero, records aside. -/
def isZeroContent : Value → Bool
  | .scalar _ content => content.isZero
  | .foreign (.bytes content) => content.isEmpty
  | .foreign (.byteArray content) => content.isEmpty
  | .sequence _ _ items => items.isEmpty
  | .range start stop step => rangeLength start stop step == 0
  | .mapping _ _ entries => entries.isEmpty
  | .box content => content.isNull
  | _ => false

mutual

def isZero : Value → Bool
  | .null => true
  | .member _ _ content =>
    match content with
    | .record _ slots => slotsAreZero slots
    | other => isZeroContent other
  | .record _ slots => slotsAreZero slots
  | other => isZeroContent other

def slotsAreZero : List (String × Value) → Bool
  | [] => true
  | (_, value) :: slots => isZero value && slotsAreZero slots

end

mutual

/-- Whether it cannot be told if a value is zero, for something in it has too many items. -/
def zeroFails : Value → Bool
  | .record _ slots => slotsZeroFail slots
  | .member _ _ content =>
    match content with
    | .record _ slots => slotsZeroFail slots
    | other => other.isOversized
  | other => other.isOversized

/-- The same for the slots of a record, up to the first one that is not zero. -/
def slotsZeroFail : List (String × Value) → Bool
  | [] => false
  | (_, value) :: slots => zeroFails value || (isZero value && slotsZeroFail slots)

end

mutual

/-- The names of the record types whose fields are read to tell whether a value is zero, in order. -/
def zeroReads : Value → List String
  | .record head slots => head.name :: slotsZeroReads slots
  | .member _ _ (.record head slots) => head.name :: slotsZeroReads slots
  | _ => []

/-- The same for the slots of a record, up to the first one that is not zero. -/
def slotsZeroReads : List (String × Value) → List String
  | [] => []
  | (_, value) :: slots => zeroReads value ++ if isZero value then slotsZeroReads slots else []

end

example : isZero (.record ⟨"P", .data, false⟩ [("a", ofText ""), ("b", .null)]) = true := by
  decide +kernel

end RuleCheck.Value
