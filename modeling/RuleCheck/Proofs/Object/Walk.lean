import RuleCheck.Proofs.Object.Store
import RuleCheck.Session

/-!
# Walks over objects

A walk as it goes over objects that refer to one another.  What a walk writes goes into a slot of the owner:
an owner that can be changed is assigned in place, and any other one is exchanged for a copy with the new
slot, which its own owner then gets.  A copy shares the objects in all other slots with the original.

What is checked is read from the store.  The hooks of records are run for what they raise; they are taken to
assign nothing.
-/

namespace RuleCheck

structure Done where
  store : Store
  /-- What the slot holds afterwards, if it can be written. -/
  slot : Slot
  /-- Whether the slot was written. -/
  replaced : Bool
  stop : Option Stop

namespace Done

def pass (store : Store) (slot : Slot) : Done :=
  ⟨store, slot, false, none⟩

def halt (store : Store) (slot : Slot) (stop : Stop) : Done :=
  ⟨store, slot, false, some stop⟩

/-- One visit, and if nothing stopped it another one to the slot it left. -/
def andThen (done : Done) (next : Store → Slot → Done) : Done :=
  match done.stop with
  | some _ => done
  | none =>
    let last := next done.store done.slot
    ⟨last.store, last.slot, done.replaced || last.replaced, last.stop⟩

/-- Writes a slot of an owner: in place if the owner can be changed, and in a copy of it otherwise. -/
def put (copied : Frame → Frame) (index : Nat) (new : Slot) (stop : Option Stop) (store : Store)
    (owner : Slot) : Done :=
  match owner with
  | .atom _ => ⟨store, owner, false, stop⟩
  | .object address =>
    match store[address]? with
    | none => ⟨store, owner, false, stop⟩
    | some cell =>
      let slots := cell.slots.set index new
      if cell.frame.isMutable then ⟨store.set address ⟨cell.frame, slots⟩, owner, false, stop⟩
      else ⟨store ++ [⟨copied cell.frame, slots⟩], .object store.length, true, stop⟩

section

variable (descend : Store → Bool → Annotation → Slot → RuleSet → Done)

/-- Visits what a slot of an owner holds, and puts it back if it was written. -/
def part (copied : Frame → Frame) (writable : Bool) (declared : Annotation) (rules : RuleSet)
    (report : Stop → Stop) (index : Nat) (slot : Slot) (store : Store) (owner : Slot) : Done :=
  let inner := descend store writable declared slot rules
  if inner.replaced then put copied index inner.slot (inner.stop.map report) inner.store owner
  else ⟨inner.store, owner, false, inner.stop.map report⟩

/-- Visits the items of a sequence in order, from an index on; a copy of it is a plain tuple. -/
def items (writable : Bool) (declared : Nat → Annotation) (rules : RuleSet) :
    Nat → List Slot → Store → Slot → Done
  | _, [], store, owner => pass store owner
  | index, slot :: slots, store, owner =>
    (part descend (fun _ => .sequence .tuple none) writable (declared index) rules
      (Stop.under (Path.index index)) index slot store owner).andThen
        (items writable declared rules (index + 1) slots)

/-- Visits the value of an entry, and puts it back if it passed and was written. -/
def entry (writable : Bool) (declared : Annotation) (rules : RuleSet) (index : Nat) (key : Value)
    (slot : Slot) (store : Store) (owner : Slot) : Done :=
  let inner := descend store writable declared slot rules
  match inner.stop with
  | some stop => ⟨inner.store, owner, false, some (stop.under (Path.key key.keyText))⟩
  | none =>
    if inner.replaced then put id index inner.slot none inner.store owner
    else pass inner.store owner

def entries (writable : Bool) (declared : Annotation) (rules : RuleSet) :
    Nat → List (Value × Slot) → Store → Slot → Done
  | _, [], store, owner => pass store owner
  | index, (key, slot) :: rest, store, owner =>
    (entry descend writable declared rules index key slot store owner).andThen
      (entries writable declared rules (index + 1) rest)

/-- Visits one field of a record that can itself be exchanged or not. -/
def field (reach : Nat) (writable : Bool) (target : Field) (rules : RuleSet) (store : Store)
    (owner : Slot) : Done :=
  let record := store.read reach owner
  match store.fieldSlot? target.name owner with
  | none => halt store owner (.fault (.noAttribute record.classOf.fullName target.name))
  | some (index, slot) =>
    part descend id (record.isMutable || writable) target.declared rules (Stop.under target.name)
      index slot store owner

def step (reach : Nat) (writable : Bool) (store : Store) (owner : Slot) : RecordStep → Done
  | .readFields => pass store owner
  | .readRules _ => pass store owner
  | .descend target rules => field descend reach writable target rules store owner
  | .unknown name => halt store owner (.refuse (.unknownField name))

/-- Takes steps of a visit to a record in order, up to the first that stops. -/
def steps (reach : Nat) (writable : Bool) : List RecordStep → Store → Slot → Done
  | [], store, owner => pass store owner
  | first :: rest, store, owner =>
    (step descend reach writable store owner first).andThen (steps reach writable rest)

/-- Visits a sequence; a sequence without an object of its own is gone through value by value. -/
def sequence (writable : Bool) (resolved : Resolved) (value : Value) (rules : RuleSet) (store : Store)
    (slot : Slot) : Done :=
  if value.isNull then ⟨store, slot, false, rules.missingStop Visit.sequenceKey⟩
  else
    match rules.checkLength value Visit.sequenceKey with
    | .error stop => halt store slot stop
    | .ok remaining =>
      if value.isOversized then halt store slot (.fault .tooLong)
      else
        match value.items? with
        | none => halt store slot (.fault (.notIterable value.classOf.fullName))
        | some own =>
          let parts :=
            match slot with
            | .atom _ => own.map Slot.atom
            | .object _ => store.slots slot
          items descend (value.itemsWritable writable) resolved.item remaining 0 parts store slot

def mapping (resolved : Resolved) (value : Value) (rules : RuleSet) (store : Store) (slot : Slot) : Done :=
  if value.isNull then ⟨store, slot, false, rules.missingStop Visit.mappingKey⟩
  else
    match rules.checkLength value Visit.mappingKey with
    | .error stop => halt store slot stop
    | .ok remaining =>
      match value with
      | .mapping kind _ own =>
        entries descend kind.isMutable resolved.element remaining 0
          ((own.map Prod.fst).zip (store.slots slot)) store slot
      | other => halt store slot (.fault (.noAttribute other.classOf.fullName "items"))

def optional (writable : Bool) (resolved : Resolved) (value : Value) (rules : RuleSet) (store : Store)
    (slot : Slot) : Done :=
  if value.isNull then
    ⟨store, slot, false, if rules.required then some (.refuse .missing) else none⟩
  else descend store writable resolved.element slot rules

def reference (resolved : Resolved) (value : Value) (rules : RuleSet) (store : Store) (slot : Slot) :
    Done :=
  match value with
  | .box .null =>
    if rules.required then halt store slot (.refuse .missing) else pass store slot
  | .box _ =>
    match store.slots slot with
    | [] => pass store slot
    | content :: _ => part descend id true resolved.element rules id 0 content store slot
  | other => halt store slot (.fault (.noAttribute other.classOf.fullName "value"))

/-- Visits a value as a record, if it is missing or of a class of records. -/
def record (walk : Walk) (reach : Nat) (writable : Bool) (value : Value) (rules : RuleSet)
    (store : Store) (slot : Slot) : Done :=
  if value.isNull then
    ⟨store, slot, false, if rules.required then some (.refuse .missing) else none⟩
  else if rules.required && value.zeroFails then halt store slot (.fault .tooLong)
  else if rules.required && value.isZero then halt store slot (.refuse .missing)
  else
    match walk.view? value.classOf with
    | none => halt store slot (.fault (.notRecord value.classOf.display))
    | some view =>
      (steps descend reach writable (RecordStep.all walk.tokenize view.fields rules) store slot).andThen
        fun store slot =>
          ⟨store, slot, false, (Visit.hooks view walk.context (store.read reach slot)).stop⟩

end

end Done

namespace Walk

/-- Lets an evaluator visit what a slot holds; `descend` visits the slots inside. -/
def evaluateSlot (walk : Walk) (reach : Nat) (descend : Store → Bool → Annotation → Slot → RuleSet → Done)
    (evaluator : Evaluator) (writable : Bool) (resolved : Resolved) (value : Value) (rules : RuleSet)
    (store : Store) (slot : Slot) : Done :=
  match evaluator with
  | .optional => .optional descend writable resolved value rules store slot
  | .reference => .reference descend resolved value rules store slot
  | .scalar kind =>
    let visit := kind.visit writable value rules
    ⟨store, if visit.replaced then .atom visit.value else slot, visit.replaced, visit.stop⟩
  | .record => .record descend walk reach writable value rules store slot
  | .sequence => .sequence descend writable resolved value rules store slot
  | .mapping => .mapping descend resolved value rules store slot

/--
Visits what a slot holds, at most so many levels deep.  Values are read from the store as far as they reach.
-/
def visitSlot (walk : Walk) (reach : Nat) : Nat → Store → Bool → Annotation → Slot → RuleSet → Done
  | 0, store, _, _, slot, _ => .halt store slot (.fault .tooDeep)
  | levels + 1, store, writable, declared, slot, rules =>
    let value := store.read reach slot
    let resolved := value.resolve declared
    match walk.evaluator? resolved.category with
    | none => .pass store slot
    | some evaluator =>
      walk.evaluateSlot reach (visitSlot walk reach levels) evaluator writable resolved value rules store slot

end Walk

namespace Session

/-- Validates what a slot holds, a value of at most so many levels, against a rule text and an annotation. -/
def validateSlot (session : Session) (validator : Validator) (reach : Nat) (store : Store) (slot : Slot)
    (rules : String) (declared : Annotation) (context : Value) : Done :=
  let levels := Walk.budget session.schema validator.config.tagKey declared (store.read reach slot)
  (session.walk validator context).visitSlot reach levels store true declared slot
    (session.tokenize validator.config rules)

end Session

end RuleCheck
