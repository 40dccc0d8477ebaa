import RuleCheck.Value.Display
import RuleCheck.Value.Graft
import RuleCheck.Visit
import RuleCheck.Visit.Compare

/-!
# Visits to sequences and mappings

The tokens on the length of a sequence (`arrlen`) or mapping (`maplen`) are checked first; the rest of
the rules goes to every item or entry in order, up to the first that stops.

The items of a list can always be written.  Those of a tuple can if the tuple itself can be exchanged:
a written item then turns the tuple into a new plain one.  The items of all other sequences cannot.
-/

namespace RuleCheck

/-- The outcome of visits to several values, one after another. -/
structure Visits where
  values : List Value
  /-- Whether the place of one of the values was written. -/
  replaced : Bool
  events : List Event
  stop : Option Stop

namespace Visits

def none : Visits := ⟨[], false, [], .none⟩

/-- The outcome with that of a visit before it, which nothing stopped. -/
def cons (visit : Visit) (rest : Visits) : Visits :=
  ⟨visit.value :: rest.values, visit.replaced || rest.replaced, visit.events ++ rest.events,
    rest.stop⟩

def halted (visit : Visit) (stop : Stop) (unreached : List Value) : Visits :=
  ⟨visit.value :: unreached, visit.replaced, visit.events, some stop⟩

/-- Visits items in order, each with its index, up to the first that stops. -/
def ofItems (visit : Nat → Value → Visit) : Nat → List Value → Visits
  | _, [] => none
  | index, item :: items =>
    let first := visit index item
    match first.stop with
    | some stop => halted first (stop.under (Path.index index)) items
    | .none => cons first (ofItems visit (index + 1) items)

/--
Visits the values of entries in order, up to the first that stops.  The value of that one is not put
back if entries are assigned at the end of their visit: only what it refers to has changed.
-/
def ofEntries (assigned : Bool) (visit : Value → Visit) : List (Value × Value) → Visits
  | [] => none
  | (key, value) :: entries =>
    let first := visit value
    match first.stop with
    | some stop =>
      let left := if assigned then value.graft first.value else first.value
      halted { first with value := left } (stop.under (Path.key key.keyText))
        (entries.map Prod.snd)
    | .none => cons first (ofEntries assigned visit entries)

/-- No item is added or lost, wherever the visits stop. -/
theorem length_ofItems (visit : Nat → Value → Visit) (index : Nat) (items : List Value) :
    (ofItems visit index items).values.length = items.length := by
  induction items generalizing index with
  | nil => rfl
  | cons item items ih =>
    cases h : (visit index item).stop with
    | none => simp [ofItems, h, cons, ih]
    | some stop => simp [ofItems, h, halted]

/-- No entry is added or lost, wherever the visits stop. -/
theorem length_ofEntries (assigned : Bool) (visit : Value → Visit)
    (entries : List (Value × Value)) :
    (ofEntries assigned visit entries).values.length = entries.length := by
  induction entries with
  | nil => rfl
  | cons entry entries ih =>
    obtain ⟨key, value⟩ := entry
    cases h : (visit value).stop with
    | none => simp [ofEntries, h, cons, ih]
    | some stop => simp [ofEntries, h, halted]

end Visits

namespace Value

/-- The items that a visit to a sequence reaches, if the value can be gone through at all. -/
def items? : Value → Option (List Value)
  | .sequence _ _ items => some items
  | .range start stop step => some (rangeItems start stop step)
  | .record head slots =>
    match head.kind with
    | .namedTuple | .plainNamedTuple => some (slots.map Prod.snd)
    | .model => some (slots.map fun (name, value) => .sequence .tuple none [ofText name, value])
    | .data => none
  | .mapping _ _ entries => some (entries.map Prod.fst)
  | .scalar _ (.text s) => some (s.toList.map fun c => ofText (String.singleton c))
  | .foreign (.bytes content) => some (content.map fun b => ofInt b.toNat)
  | .foreign (.byteArray content) => some (content.map fun b => ofInt b.toNat)
  | _ => none

def itemsWritable (value : Value) (writable : Bool) : Bool :=
  match value with
  | .sequence .tuple _ _ => writable
  | .sequence kind _ _ => kind.isMutable
  | .record head _ => head.isTuple && writable
  | _ => false

/-- Whether a written item exchanges the value as a whole. -/
def isRebuilt (value : Value) : Bool :=
  match value with
  | .sequence .tuple _ _ => true
  | .record head _ => head.isTuple
  | _ => false

/-- The value with other items, which were not written themselves. -/
def withItems (value : Value) (items : List Value) : Value :=
  match value with
  | .sequence kind derived _ => .sequence kind derived items
  | .record head slots =>
    if head.isTuple then .record head (List.zipWith (fun slot item => (slot.1, item)) slots items)
    else value
  | other => other

def withEntries (value : Value) (values : List Value) : Value :=
  match value with
  | .mapping kind derived entries =>
    .mapping kind derived (List.zipWith (fun entry new => (entry.1, new)) entries values)
  | other => other

end Value

namespace Visit

def sequenceKey : String := "arrlen"

def mappingKey : String := "maplen"

/-- A visit that only looks for a reason to refuse a missing value. -/
def missing (stop : Option Stop) : Visit :=
  ⟨.null, false, [], stop⟩

def ofItems (value : Value) (visits : Visits) : Visit :=
  if visits.replaced && value.isRebuilt then
    ⟨.sequence .tuple none visits.values, true, visits.events, visits.stop⟩
  else ⟨value.withItems visits.values, false, visits.events, visits.stop⟩

def sequence (descend : Bool → Annotation → Value → RuleSet → Visit) (writable : Bool)
    (resolved : Resolved) (value : Value) (rules : RuleSet) : Visit :=
  if value.isNull then missing (rules.missingStop sequenceKey)
  else
    match rules.checkLength value sequenceKey with
    | .error stop => .halt value stop
    | .ok remaining =>
      if value.isOversized then .abort value .tooLong
      else
        match value.items? with
        | none => .abort value (.notIterable value.classOf.fullName)
        | some items =>
          ofItems value <|
            Visits.ofItems
              (fun index item =>
                descend (value.itemsWritable writable) (resolved.item index) item remaining)
              0 items

def mapping (descend : Bool → Annotation → Value → RuleSet → Visit)
    (resolved : Resolved) (value : Value) (rules : RuleSet) : Visit :=
  if value.isNull then missing (rules.missingStop mappingKey)
  else
    match rules.checkLength value mappingKey with
    | .error stop => .halt value stop
    | .ok remaining =>
      match value with
      | .mapping kind _ entries =>
        let visits :=
          Visits.ofEntries kind.isMutable
            (fun item => descend kind.isMutable resolved.element item remaining) entries
        ⟨value.withEntries visits.values, false, visits.events, visits.stop⟩
      | other => .abort other (.noAttribute other.classOf.fullName "items")

def optional (descend : Bool → Annotation → Value → RuleSet → Visit) (writable : Bool)
    (resolved : Resolved) (value : Value) (rules : RuleSet) : Visit :=
  if value.isNull then missing (if rules.required then some (.refuse .missing) else none)
  else descend writable resolved.element value rules

def reference (descend : Bool → Annotation → Value → RuleSet → Visit)
    (resolved : Resolved) (value : Value) (rules : RuleSet) : Visit :=
  match value with
  | .box .null => if rules.required then .refuse value .missing else .pass value
  | .box content =>
    let inner := descend true resolved.element content rules
    ⟨.box inner.value, false, inner.events, inner.stop⟩
  | other => .abort other (.noAttribute other.classOf.fullName "value")

end Visit

end RuleCheck
