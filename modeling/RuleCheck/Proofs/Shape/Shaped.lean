import RuleCheck.Proofs.Value.Rebuild
import RuleCheck.Proofs.Walk.Frame
import RuleCheck.Proofs.Walk.Quiet

/-! # What a walk can make of a value

`Shaped` tells what a walk can make of a value, part by part.  Containers and records keep their kind, their
type, their keys and the number and order of their parts; the one exception is a tuple with a place that was
written, which becomes a plain tuple.  A scalar gives way to another one only if it is a text, or missing, or
the zero of the category that it resolves to.
-/

namespace RuleCheck

def anyWritten (own : Nat → Bool) (n : Nat) : Bool :=
  (List.range n).any own

theorem anyWritten_eq_true_iff {own : Nat → Bool} {n : Nat} :
    anyWritten own n = true ↔ ∃ i < n, own i = true := by
  simp [anyWritten, List.any_eq_true, List.mem_range]

theorem anyWritten_or (own other : Nat → Bool) (n : Nat) :
    anyWritten (fun i => own i || other i) n = (anyWritten own n || anyWritten other n) := by
  rw [Bool.eq_iff_iff]
  simp only [Bool.or_eq_true, anyWritten_eq_true_iff]
  constructor
  · rintro ⟨i, hi, h | h⟩
    · exact .inl ⟨i, hi, h⟩
    · exact .inr ⟨i, hi, h⟩
  · rintro (⟨i, hi, h⟩ | ⟨i, hi, h⟩)
    · exact ⟨i, hi, .inl h⟩
    · exact ⟨i, hi, .inr h⟩

theorem anyWritten_false (n : Nat) : anyWritten (fun _ => false) n = false := by
  simp [anyWritten]

/-- What is declared of the field of a name, and nothing if there is no such field. -/
def RecordView.declaredOf (view : RecordView) (name : String) : Annotation :=
  match view.fields.find? fun field => field.name == name with
  | some field => field.declared
  | none => .absent

/-- Whether a value can give way to another one of the kind: it is missing, the zero of the kind, or a text. -/
def ScalarKind.GivesWay (kind : ScalarKind) (value : Value) : Prop :=
  value = .null ∨ kind.isZero value = .ok true ∨
    (kind = .text ∧ ∃ origin s, value = .scalar origin (.text s))

/--
What a walk can make of a value with what is declared of its place, and whether it wrote that place.  The parts
of a value are related one by one, each with whether its own place was written.
-/
inductive Shaped (view? : Class → Option RecordView) : Bool → Annotation → Value → Value → Prop
  | same (declared : Annotation) (value : Value) : Shaped view? false declared value value
  /-- A scalar of the category of the place is written. -/
  | scalar {declared : Annotation} {value : Value} {kind : ScalarKind} {content : Scalar}
      (hcategory : (value.resolve declared).category = kind.category)
      (hbase : content.base = kind.base) (hgives : kind.GivesWay value) :
      Shaped view? true declared value (.ofScalar content)
  | present {written : Bool} {declared : Annotation} {value new : Value}
      (hcategory : (value.resolve declared).category = .optional) (hnull : value.isNull = false)
      (h : Shaped view? written (value.resolve declared).element value new) :
      Shaped view? written declared value new
  | content {written : Bool} {declared : Annotation} {value new : Value}
      (hcategory : ((Value.box value).resolve declared).category = .reference)
      (h : Shaped view? written ((Value.box value).resolve declared).element value new) :
      Shaped view? false declared (.box value) (.box new)
  /-- A tuple with a place that was written becomes a plain one, every other sequence stays what it is. -/
  | items {declared : Annotation} {value : Value} {items news : List Value} {own : Nat → Bool}
      (hcategory : (value.resolve declared).category = .list) (hnull : value.isNull = false)
      (hitems : value.items? = some items) (hlength : news.length = items.length)
      (hwritable : anyWritten own items.length = true → value.itemsWritable true = true)
      (h : ∀ (i : Nat) (old new : Value), items[i]? = some old → news[i]? = some new →
        Shaped view? (own i) ((value.resolve declared).item i) old new) :
      Shaped view? (anyWritten own items.length && value.isRebuilt) declared value
        (value.rebuild (anyWritten own items.length) news)
  | entries {declared : Annotation} {kind : MappingKind} {derived : Option String}
      {entries news : List (Value × Value)} {own : Nat → Bool}
      (hcategory : ((Value.mapping kind derived entries).resolve declared).category = .map)
      (hkeys : news.map Prod.fst = entries.map Prod.fst)
      (hwritable : anyWritten own entries.length = true → kind.isMutable = true)
      (h : ∀ (i : Nat) (old new : Value × Value), entries[i]? = some old → news[i]? = some new →
        Shaped view? (own i) ((Value.mapping kind derived entries).resolve declared).element
          old.2 new.2) :
      Shaped view? false declared (.mapping kind derived entries) (.mapping kind derived news)
  /-- A field that is not declared stays as it is. -/
  | fields {declared : Annotation} {head : RecordHead} {slots news : List (String × Value)}
      {view : RecordView} {own : Nat → Bool}
      (hcategory : ((Value.record head slots).resolve declared).category = .record)
      (hview : view? (.record head) = some view)
      (hnames : news.map Prod.fst = slots.map Prod.fst)
      (hother : ∀ (i : Nat) (old new : String × Value), slots[i]? = some old → news[i]? = some new →
        (∀ field ∈ view.fields, field.name ≠ old.1) → new = old)
      (h : ∀ (i : Nat) (old new : String × Value), slots[i]? = some old → news[i]? = some new →
        Shaped view? (own i) (view.declaredOf old.1) old.2 new.2) :
      Shaped view? (!head.isMutable && anyWritten own slots.length) declared (.record head slots)
        (.record head news)
  /-- A box that is declared as a record has one field. -/
  | boxField {written : Bool} {declared : Annotation} {value new : Value} {view : RecordView}
      (hcategory : ((Value.box value).resolve declared).category = .record)
      (hview : view? (Value.box value).classOf = some view)
      (h : Shaped view? written (view.declaredOf Schema.boxField.name) value new) :
      Shaped view? false declared (.box value) (.box new)

namespace Shaped

variable {view? : Class → Option RecordView} {written later : Bool} {declared : Annotation}
  {value new last : Value}

theorem kind_category_ne {kind : ScalarKind} :
    kind.category ≠ .optional ∧ kind.category ≠ .reference ∧ kind.category ≠ .list ∧
      kind.category ≠ .map ∧ kind.category ≠ .record ∧ kind.category ≠ .unsupported := by
  cases kind <;> simp [ScalarKind.category]

theorem resolve_eq (h : Shaped view? written declared value new) :
    new.resolve declared = value.resolve declared := by
  cases h with
  | same => rfl
  | scalar hcategory hbase => exact Value.resolve_ofScalar hcategory hbase
  | present hcategory hnull => exact (Value.resolve_optional hnull hcategory).2 new
  | content => exact (Value.alike_box _ _).resolve_eq declared
  | items hcategory => exact Walk.alike_rebuild hcategory _ _
  | entries => exact (Value.alike_mapping _ _ _ _ _).resolve_eq declared
  | fields => exact (Value.alike_record _ _ _).resolve_eq declared
  | boxField => exact (Value.alike_box _ _).resolve_eq declared

theorem isNull (h : Shaped view? written declared value new) (hnull : value.isNull = false) :
    new.isNull = false := by
  induction h with
  | present _ _ _ ih => exact ih hnull
  | @items _ value _ news =>
      unfold Value.rebuild
      split
      · rfl
      · rwa [(Value.alike_withItems value news).isNull]
  | same => exact hnull
  | scalar | content | entries | fields | boxField => rfl

/-! ## The last change of a value of some category -/

theorem of_scalar {kind : ScalarKind} (hkind : (value.resolve declared).category = kind.category)
    (h : Shaped view? written declared value new) :
    (written = false ∧ new = value) ∨
      (written = true ∧ ∃ content, new = .ofScalar content ∧ content.base = kind.base ∧
        kind.GivesWay value) := by
  obtain ⟨hoptional, hreference, hlist, hmap, hrecord, -⟩ := @kind_category_ne kind
  cases h with
  | same => exact .inl ⟨rfl, rfl⟩
  | @scalar _ _ other content hcategory hbase hgives =>
      have hsame : other = kind := by
        rw [hkind] at hcategory
        cases other <;> cases kind <;> first | rfl | cases hcategory
      subst hsame
      exact .inr ⟨rfl, content, rfl, hbase, hgives⟩
  | present hcategory => exact absurd (hkind.symm.trans hcategory) hoptional
  | content hcategory => exact absurd (hkind.symm.trans hcategory) hreference
  | items hcategory => exact absurd (hkind.symm.trans hcategory) hlist
  | entries hcategory => exact absurd (hkind.symm.trans hcategory) hmap
  | fields hcategory | boxField hcategory => exact absurd (hkind.symm.trans hcategory) hrecord

theorem of_optional (hoptional : (value.resolve declared).category = .optional)
    (h : Shaped view? written declared value new) :
    (written = false ∧ new = value) ∨
      (value.isNull = false ∧ Shaped view? written (value.resolve declared).element value new) := by
  cases h with
  | same => exact .inl ⟨rfl, rfl⟩
  | scalar hcategory =>
      exact absurd (hcategory.symm.trans hoptional) (kind_category_ne).1
  | present _ hnull h => exact .inr ⟨hnull, h⟩
  | content hcategory | items hcategory | entries hcategory | fields hcategory
  | boxField hcategory =>
      rw [hoptional] at hcategory
      cases hcategory

theorem of_reference {content : Value}
    (hreference : ((Value.box content).resolve declared).category = .reference)
    (h : Shaped view? written declared (.box content) new) :
    written = false ∧ (new = .box content ∨ ∃ own inner, new = .box inner ∧
      Shaped view? own ((Value.box content).resolve declared).element content inner) := by
  cases h with
  | same => exact ⟨rfl, .inl rfl⟩
  | scalar hcategory => exact absurd (hcategory.symm.trans hreference) kind_category_ne.2.1
  | content _ h => exact ⟨rfl, .inr ⟨_, _, rfl, h⟩⟩
  | present hcategory | items hcategory | boxField hcategory =>
      rw [hreference] at hcategory
      cases hcategory

theorem of_list (hlist : (value.resolve declared).category = .list) {items : List Value}
    (hitems : value.items? = some items) (h : Shaped view? written declared value new) :
    (written = false ∧ new = value) ∨ ∃ news own, news.length = items.length ∧
      written = (anyWritten own items.length && value.isRebuilt) ∧
      new = value.rebuild (anyWritten own items.length) news ∧
      (anyWritten own items.length = true → value.itemsWritable true = true) ∧
      ∀ (i : Nat) (old new : Value), items[i]? = some old → news[i]? = some new →
        Shaped view? (own i) ((value.resolve declared).item i) old new := by
  cases h with
  | same => exact .inl ⟨rfl, rfl⟩
  | scalar hcategory => exact absurd (hcategory.symm.trans hlist) kind_category_ne.2.2.1
  | items _ _ hown hlength hwritable h =>
      rw [hitems, Option.some.injEq] at hown
      subst hown
      exact .inr ⟨_, _, hlength, rfl, rfl, hwritable, h⟩
  | present hcategory | content hcategory | entries hcategory | fields hcategory
  | boxField hcategory =>
      rw [hlist] at hcategory
      cases hcategory

theorem of_mapping {kind : MappingKind} {derived : Option String} {entries : List (Value × Value)}
    (hmap : ((Value.mapping kind derived entries).resolve declared).category = .map)
    (h : Shaped view? written declared (.mapping kind derived entries) new) :
    written = false ∧ (new = .mapping kind derived entries ∨
      ∃ (news : List (Value × Value)) (own : Nat → Bool), new = .mapping kind derived news ∧
        news.map Prod.fst = entries.map Prod.fst ∧
        (anyWritten own entries.length = true → kind.isMutable = true) ∧
        ∀ (i : Nat) (old new : Value × Value), entries[i]? = some old → news[i]? = some new →
          Shaped view? (own i) ((Value.mapping kind derived entries).resolve declared).element
            old.2 new.2) := by
  cases h with
  | same => exact ⟨rfl, .inl rfl⟩
  | scalar hcategory => exact absurd (hcategory.symm.trans hmap) kind_category_ne.2.2.2.1
  | entries _ hkeys hwritable h => exact ⟨rfl, .inr ⟨_, _, rfl, hkeys, hwritable, h⟩⟩
  | present hcategory | items hcategory =>
      rw [hmap] at hcategory
      cases hcategory

theorem of_record {head : RecordHead} {slots : List (String × Value)} {view : RecordView}
    (hview : view? (.record head) = some view)
    (hrecord : ((Value.record head slots).resolve declared).category = .record)
    (h : Shaped view? written declared (.record head slots) new) :
    (written = false ∧ new = .record head slots) ∨
      ∃ (news : List (String × Value)) (own : Nat → Bool), new = .record head news ∧
        written = (!head.isMutable && anyWritten own slots.length) ∧
        news.map Prod.fst = slots.map Prod.fst ∧
        (∀ (i : Nat) (old new : String × Value), slots[i]? = some old → news[i]? = some new →
          (∀ field ∈ view.fields, field.name ≠ old.1) → new = old) ∧
        ∀ (i : Nat) (old new : String × Value), slots[i]? = some old → news[i]? = some new →
          Shaped view? (own i) (view.declaredOf old.1) old.2 new.2 := by
  cases h with
  | same => exact .inl ⟨rfl, rfl⟩
  | scalar hcategory =>
      exact absurd (hcategory.symm.trans hrecord) kind_category_ne.2.2.2.2.1
  | fields _ hown hnames hother h =>
      rw [hview, Option.some.injEq] at hown
      subst hown
      exact .inr ⟨_, _, rfl, rfl, hnames, hother, h⟩
  | present hcategory | items hcategory =>
      rw [hrecord] at hcategory
      cases hcategory

theorem of_boxField {content : Value} {view : RecordView}
    (hview : view? (Value.box content).classOf = some view)
    (hrecord : ((Value.box content).resolve declared).category = .record)
    (h : Shaped view? written declared (.box content) new) :
    written = false ∧ (new = .box content ∨ ∃ own inner, new = .box inner ∧
      Shaped view? own (view.declaredOf Schema.boxField.name) content inner) := by
  cases h with
  | same => exact ⟨rfl, .inl rfl⟩
  | scalar hcategory =>
      exact absurd (hcategory.symm.trans hrecord) kind_category_ne.2.2.2.2.1
  | boxField _ hown h =>
      rw [hview, Option.some.injEq] at hown
      subst hown
      exact ⟨rfl, .inr ⟨_, _, rfl, h⟩⟩
  | present hcategory | content hcategory | items hcategory =>
      rw [hrecord] at hcategory
      cases hcategory

/-! ## One change after another -/

theorem eq_of_scalar {origin : Origin} {content : Scalar}
    (h : Shaped view? written declared value new) (hwritten : written = false)
    (hvalue : value = .scalar origin content) : new = value := by
  induction h with
  | same => rfl
  | scalar => cases hwritten
  | present _ _ _ ih => exact ih hwritten hvalue
  | items hcategory hnull =>
      rcases Value.list_of_resolve hnull hcategory with ⟨_, _, _, rfl⟩ | ⟨_, _, _, rfl⟩ | ⟨_, _, rfl, _⟩ <;>
        cases hvalue
  | content | entries | fields | boxField => cases hvalue

theorem exists_getElem? {α β : Type} {olds : List α} {news : List β}
    (hlength : news.length = olds.length) {i : Nat} {old : α} (hold : olds[i]? = some old) :
    ∃ new, news[i]? = some new := by
  have hi := (List.getElem?_eq_some_iff.1 hold).1
  exact ⟨news[i], List.getElem?_eq_getElem (by omega)⟩

/-- What holds of the parts one by one, from the first to the second ones and from these to the last ones. -/
theorem each_trans {α : Type} {olds news lasts : List α} {Later Both : Nat → α → α → Prop}
    (hlength : news.length = olds.length)
    (h : ∀ (i : Nat) (old new : α), olds[i]? = some old → news[i]? = some new →
      ∀ last, Later i new last → Both i old last)
    (hlater : ∀ (i : Nat) (new last : α), news[i]? = some new → lasts[i]? = some last → Later i new last)
    (i : Nat) (old last : α) (hold : olds[i]? = some old) (hlast : lasts[i]? = some last) :
    Both i old last := by
  obtain ⟨new, hnew⟩ := exists_getElem? hlength hold
  exact h i old new hold hnew last (hlater i new last hnew hlast)

/-- Parts whose places are not written are the parts as they were, if no change is made without a write. -/
theorem eq_of_unwritten {α : Type} {own : Nat → Bool} {olds news : List α}
    (hlength : news.length = olds.length) (hnone : anyWritten own olds.length = false)
    (h : ∀ (i : Nat) (old new : α), olds[i]? = some old → news[i]? = some new → own i = false →
      new = old) : news = olds := by
  refine List.ext_getElem? fun i => ?_
  cases hold : olds[i]? with
  | none =>
      rw [List.getElem?_eq_none_iff] at hold ⊢
      omega
  | some old =>
      have hi := (List.getElem?_eq_some_iff.1 hold).1
      obtain ⟨new, hnew⟩ := exists_getElem? hlength hold
      have hunwritten : own i = false := by
        cases hown : own i with
        | false => rfl
        | true =>
            rw [anyWritten_eq_true_iff.2 ⟨i, hi, hown⟩] at hnone
            cases hnone
      rw [hnew, h i old new hold hnew hunwritten]

theorem range_items {own : Nat → Bool} {items news : List Value} {annotate : Nat → Annotation}
    (start stop step : Int)
    (hvalue : value = .range start stop step) (hitems : value.items? = some items)
    (hlength : news.length = items.length)
    (hwritable : anyWritten own items.length = true → value.itemsWritable true = true)
    (h : ∀ (i : Nat) (old new : Value), items[i]? = some old → news[i]? = some new →
      Shaped view? (own i) (annotate i) old new) : news = items := by
  subst hvalue
  cases hitems
  have hnone : anyWritten own (Value.rangeItems start stop step).length = false := by
    cases hany : anyWritten own (Value.rangeItems start stop step).length with
    | false => rfl
    | true => cases hwritable hany
  apply eq_of_unwritten hlength hnone
  intro i old new hold hnew hunwritten
  obtain ⟨n, -, hn⟩ := List.mem_map.1 (List.mem_of_getElem? hold)
  exact eq_of_scalar (h i old new hold hnew) hunwritten hn.symm

theorem fst_eq_of_map {α β : Type} {olds news : List (α × β)}
    (hfirst : news.map Prod.fst = olds.map Prod.fst) {i : Nat} {old new : α × β}
    (hold : olds[i]? = some old) (hnew : news[i]? = some new) : new.1 = old.1 := by
  have hsame := congrArg (fun list => list[i]?) hfirst
  simpa [hold, hnew] using hsame

theorem map_fst_zipWith {α β : Type} {f : β → β → β} {olds : List (α × β)} {news : List β}
    (hlength : news.length = olds.length) :
    (List.zipWith (fun old new => (old.1, f old.2 new)) olds news).map Prod.fst = olds.map Prod.fst := by
  induction olds generalizing news with
  | nil => rfl
  | cons old olds ih =>
      cases news with
      | nil => simp at hlength
      | cons new news => simp [ih (Nat.succ.inj hlength)]

/-- A pair that keeps its first part has a second one made of those of the old and the new pair. -/
theorem exists_of_zipWith {α β : Type} {f : β → β → β} {olds news : List (α × β)} {i : Nat}
    {old left : α × β} (hold : olds[i]? = some old)
    (hleft : (List.zipWith (fun old new => (old.1, f old.2 new)) olds (news.map Prod.snd))[i]? = some left) :
    ∃ new, news[i]? = some new ∧ left = (old.1, f old.2 new.2) := by
  obtain ⟨first, second, hfirst, hsecond, rfl⟩ := List.getElem?_zipWith_eq_some.1 hleft
  rw [List.getElem?_map] at hsecond
  obtain ⟨new, hnew, rfl⟩ := Option.map_eq_some_iff.1 hsecond
  cases hold.symm.trans hfirst
  exact ⟨new, hnew, rfl⟩

theorem trans (h : Shaped view? written declared value new)
    (hlater : Shaped view? later declared new last) :
    Shaped view? (written || later) declared value last := by
  induction h generalizing later last with
  | same => simpa using hlater
  | scalar hcategory hbase hgives =>
      have hsame := Value.resolve_ofScalar hcategory hbase
      rcases of_scalar (hsame ▸ hcategory) hlater with ⟨rfl, rfl⟩ | ⟨rfl, content, rfl, hnew, -⟩
      · exact .scalar hcategory hbase hgives
      · exact .scalar hcategory hnew hgives
  | @present _ declared value new hcategory hnull h ih =>
      have hsame := (Value.resolve_optional hnull hcategory).2 new
      rcases of_optional (hsame ▸ hcategory) hlater with ⟨rfl, rfl⟩ | ⟨-, hinner⟩
      · simpa using Shaped.present hcategory hnull h
      · rw [hsame] at hinner
        exact .present hcategory hnull (ih hinner)
  | @content _ declared value new hcategory h ih =>
      have hsame := (Value.alike_box new value).resolve_eq declared
      obtain ⟨rfl, rfl | ⟨own, inner, rfl, hinner⟩⟩ := of_reference (hsame ▸ hcategory) hlater
      · exact .content hcategory h
      · rw [hsame] at hinner
        exact .content hcategory (ih hinner)
  | @items declared value items news own hcategory hnull hitems hlength hwritable h ih =>
      have hsame := Walk.alike_rebuild hcategory (anyWritten own items.length) news
      have hrange := fun start stop step hvalue =>
        range_items start stop step hvalue hitems hlength hwritable h
      obtain ⟨hnews, -, -⟩ := Value.items?_rebuild hnull hcategory hitems hlength hrange
        (anyWritten own items.length)
      rcases of_list (hsame ▸ hcategory) hnews hlater with
        ⟨rfl, rfl⟩ | ⟨lasts, own', hlasts, rfl, rfl, hwritable', h'⟩
      · rw [Bool.or_false]
        exact .items hcategory hnull hitems hlength hwritable h
      · rw [hlength] at hlasts hwritable' ⊢
        rw [Value.isRebuilt_rebuild, ← Bool.and_or_distrib_right, ← anyWritten_or,
          Value.rebuild_rebuild _ _ _ (hlasts.trans hlength.symm), ← anyWritten_or]
        rw [hsame] at h'
        refine .items hcategory hnull hitems hlasts ?_
          (each_trans hlength (fun i old new hold hnew _ => ih i old new hold hnew) h')
        rw [anyWritten_or, Bool.or_eq_true]
        rintro (hfirst | hsecond)
        · exact hwritable hfirst
        · rw [← (Value.rebuild_like value (anyWritten own items.length) true news).2]
          exact hwritable' hsecond
  | @entries declared kind derived entries news own hcategory hkeys hwritable h ih =>
      have hsame := (Value.alike_mapping kind derived derived news entries).resolve_eq declared
      have hlength : news.length = entries.length := by simpa using congrArg List.length hkeys
      obtain ⟨rfl, rfl | ⟨lasts, own', rfl, hkeys', hwritable', h'⟩⟩ :=
        of_mapping (hsame ▸ hcategory) hlater
      · exact .entries hcategory hkeys hwritable h
      · rw [hlength] at hwritable'
        have hboth : anyWritten (fun i => own i || own' i) entries.length = true →
            kind.isMutable = true := by
          rw [anyWritten_or, Bool.or_eq_true]
          exact fun h => h.elim hwritable hwritable'
        rw [hsame] at h'
        exact .entries hcategory (hkeys'.trans hkeys) hboth
          (each_trans hlength (fun i old new hold hnew _ => ih i old new hold hnew) h')
  | @fields declared head slots news view own hcategory hview hnames hother h ih =>
      have hsame := (Value.alike_record head news slots).resolve_eq declared
      have hlength : news.length = slots.length := by simpa using congrArg List.length hnames
      rcases of_record hview (hsame ▸ hcategory) hlater with
        ⟨rfl, rfl⟩ | ⟨lasts, own', rfl, rfl, hnames', hother', h'⟩
      · rw [Bool.or_false]
        exact .fields hcategory hview hnames hother h
      · rw [hlength, ← Bool.and_or_distrib_left, ← anyWritten_or]
        refine .fields hcategory hview (hnames'.trans hnames) (each_trans hlength ?_ hother')
          (each_trans hlength ?_ h')
        · intro i old new hold hnew last hlast hundeclared
          rw [hother i old new hold hnew hundeclared] at hlast
          exact hlast hundeclared
        · intro i old new hold hnew last hlast
          rw [fst_eq_of_map hnames hold hnew] at hlast
          exact ih i old new hold hnew hlast
  | @boxField _ declared value new view hcategory hview h ih =>
      have hsame := (Value.alike_box new value).resolve_eq declared
      have hview' : view? (Value.box new).classOf = some view := hview
      obtain ⟨rfl, rfl | ⟨own, inner, rfl, hinner⟩⟩ := of_boxField hview' (hsame ▸ hcategory) hlater
      · exact .boxField hcategory hview h
      · exact .boxField hcategory hview (ih hinner)

end Shaped

/-! ## What is left of the old object -/

namespace Shaped

variable {view? : Class → Option RecordView} {written : Bool} {declared : Annotation}
  {value new : Value}

/-- What is left of the old object was made of the value as well, without a write to its place. -/
theorem graft (h : Shaped view? written declared value new) :
    Shaped view? false declared value (value.graft new) := by
  induction h with
  | same declared value =>
      rw [Value.graft_self]
      exact .same declared value
  | scalar hcategory =>
      rcases Value.scalar_of_resolve hcategory with rfl | ⟨origin, content, rfl, -⟩
      · simpa [Value.graft] using Shaped.same _ _
      · simpa [Value.graft] using Shaped.same _ _
  | present hcategory hnull _ ih => exact .present hcategory hnull ih
  | content hcategory h _ => simpa [Value.graft] using Shaped.content hcategory h
  | @items declared value items news own hcategory hnull hitems hlength hwritable h ih =>
      cases hmutable : value.isMutable with
      | true =>
          have hnew := Shaped.items hcategory hnull hitems hlength hwritable h
          rcases Value.list_of_resolve hnull hcategory with
            ⟨kind, derived, olds, rfl⟩ | ⟨start, stop, step, rfl⟩ | ⟨head, slots, rfl, htuple⟩
          · have hkind : kind.isMutable = true := hmutable
            have hrebuilt : (Value.sequence kind derived olds).isRebuilt = false := by
              cases kind <;> first | rfl | cases hkind
            rw [hrebuilt, Bool.and_false] at hnew
            simpa [Value.graft, hkind] using hnew
          · cases hmutable
          · simp [Value.isMutable, RecordHead.isMutable, htuple] at hmutable
      | false =>
          rw [Value.graft_rebuild_fixed hnull hcategory hmutable hitems hlength]
          have hgrafted : (Value.graftItems items news).length = items.length := by
            rw [Value.graftItems_eq_zipWith hlength, List.length_zipWith]
            omega
          have hunwritten : anyWritten (fun _ => false) items.length = true →
              value.itemsWritable true = true := by simp [anyWritten_false]
          have hleft := Shaped.items hcategory hnull hitems hgrafted hunwritten
            fun i old left hold hleft => by
              rw [Value.graftItems_eq_zipWith hlength] at hleft
              obtain ⟨first, new, hfirst, hnew, rfl⟩ := List.getElem?_zipWith_eq_some.1 hleft
              cases hold.symm.trans hfirst
              exact ih i old new hold hnew
          simpa [anyWritten_false, Value.rebuild] using hleft
  | @entries declared kind derived entries news own hcategory hkeys hwritable h ih =>
      cases hkind : kind.isMutable with
      | true => simpa [Value.graft, hkind] using Shaped.entries hcategory hkeys hwritable h
      | false =>
          have hlength : (news.map Prod.snd).length = entries.length := by
            simpa using congrArg List.length hkeys
          have hunwritten : anyWritten (fun _ => false) entries.length = true →
              kind.isMutable = true := by simp [anyWritten_false]
          simp only [Value.graft, hkind, Bool.false_eq_true, if_false, Value.children,
            Value.graftEntries_eq_zipWith hlength]
          refine .entries hcategory (map_fst_zipWith hlength) hunwritten fun i old left hold hleft => ?_
          obtain ⟨new, hnew, rfl⟩ := exists_of_zipWith hold hleft
          exact ih i old new hold hnew
  | @fields declared head slots news view own hcategory hview hnames hother h ih =>
      cases hhead : head.isMutable with
      | true => simpa [Value.graft, hhead] using Shaped.fields hcategory hview hnames hother h
      | false =>
          have hlength : (news.map Prod.snd).length = slots.length := by
            simpa using congrArg List.length hnames
          simp only [Value.graft, hhead, Bool.false_eq_true, if_false, Value.children,
            Value.graftSlots_eq_zipWith hlength]
          have hunwritten : (!head.isMutable && anyWritten (fun _ => false) slots.length) = false := by
            simp [anyWritten_false]
          rw [← hunwritten]
          apply Shaped.fields hcategory hview (map_fst_zipWith hlength)
          · intro i old left hold hleft hundeclared
            obtain ⟨new, hnew, rfl⟩ := exists_of_zipWith hold hleft
            rw [hother i old new hold hnew hundeclared, Value.graft_self]
          · intro i old left hold hleft
            obtain ⟨new, hnew, rfl⟩ := exists_of_zipWith hold hleft
            exact ih i old new hold hnew
  | boxField hcategory hview h _ => simpa [Value.graft] using Shaped.boxField hcategory hview h

/-! ## What no walk changes -/

/-- A value with nothing inside that can be changed in place stays as it is if its place is not written. -/
theorem eq_of_fixed (h : Shaped view? written declared value new) (hwritten : written = false)
    (hfixed : ∀ inner : Value, inner.Within value → inner.isMutable = false) : new = value := by
  induction h with
  | same => rfl
  | scalar => cases hwritten
  | present _ _ _ ih => exact ih hwritten hfixed
  | content => cases hfixed _ (.here _)
  | boxField => cases hfixed _ (.here _)
  | @items declared value items news own hcategory hnull hitems hlength hwritable h ih =>
      have hmutable : value.isMutable = false := hfixed value (.here value)
      have hnone : anyWritten own items.length = false := by
        cases hany : anyWritten own items.length with
        | false => rfl
        | true =>
            rw [hany, Bool.true_and] at hwritten
            cases hmutable.symm.trans (Value.isMutable_of_itemsWritable (hwritable hany) hwritten)
      have hsame : news = items := by
        apply eq_of_unwritten hlength hnone
        intro i old new hold hnew hunwritten
        have hmem := List.mem_of_getElem? hold
        rcases Value.items_of_resolve hnull hcategory hitems with rfl | ⟨-, hnumbers⟩
        · exact ih i old new hold hnew hunwritten fun inner hinner => hfixed inner (.inside hmem hinner)
        · obtain ⟨n, hn⟩ := hnumbers old hmem
          exact eq_of_scalar (h i old new hold hnew) hunwritten hn
      rw [hnone, hsame]
      exact Value.withItems_self hitems
  | @entries declared kind derived entries news own hcategory hkeys hwritable h ih =>
      have hmutable : kind.isMutable = false := hfixed _ (.here _)
      have hnone : anyWritten own entries.length = false := by
        cases hany : anyWritten own entries.length with
        | false => rfl
        | true => rw [hwritable hany] at hmutable; cases hmutable
      have hlength : news.length = entries.length := by simpa using congrArg List.length hkeys
      rw [eq_of_unwritten hlength hnone]
      intro i old new hold hnew hunwritten
      refine Prod.ext (fst_eq_of_map hkeys hold hnew) (ih i old new hold hnew hunwritten ?_)
      have hmem : old.2 ∈ (Value.mapping kind derived entries).children :=
        List.mem_map_of_mem (List.mem_of_getElem? hold)
      exact fun inner hinner => hfixed inner (.inside hmem hinner)
  | @fields declared head slots news view own hcategory hview hnames hother h ih =>
      have hmutable : head.isMutable = false := hfixed _ (.here _)
      have hnone : anyWritten own slots.length = false := by simpa [hmutable] using hwritten
      have hlength : news.length = slots.length := by simpa using congrArg List.length hnames
      rw [eq_of_unwritten hlength hnone]
      intro i old new hold hnew hunwritten
      refine Prod.ext (fst_eq_of_map hnames hold hnew) (ih i old new hold hnew hunwritten ?_)
      have hmem : old.2 ∈ (Value.record head slots).children :=
        List.mem_map_of_mem (List.mem_of_getElem? hold)
      exact fun inner hinner => hfixed inner (.inside hmem hinner)

end Shaped

/--
The values that no walk changes: scalars that are no text and the zero of no kind, values of the types that
nothing evaluates, and sets that hold nothing that could be changed in place.
-/
inductive Value.Steadfast : Value → Prop
  | scalar {origin : Origin} {content : Scalar} (htext : ∀ s, content ≠ .text s)
      (hzero : ∀ kind : ScalarKind, kind.isZero (.scalar origin content) ≠ .ok true) :
      Steadfast (.scalar origin content)
  | foreign (content : Foreign) : Steadfast (.foreign content)
  | member (enumeration name : String) (content : Value) : Steadfast (.member enumeration name content)
  | set {kind : SequenceKind} {derived : Option String} {items : List Value}
      (hkind : kind = .set ∨ kind = .frozenset)
      (hitems : ∀ item ∈ items, ∀ inner : Value, inner.Within item → inner.isMutable = false) :
      Steadfast (.sequence kind derived items)

namespace Shaped

variable {view? : Class → Option RecordView} {written : Bool} {declared : Annotation}
  {value new : Value}

theorem eq_of_steadfast (h : Shaped view? written declared value new) (hfast : value.Steadfast) :
    new = value := by
  induction h with
  | same => rfl
  | scalar hcategory _ hgives =>
      cases hfast with
      | scalar htext hzero =>
          rcases hgives with hnull | hown | ⟨-, origin, s, hvalue⟩
          · cases hnull
          · exact absurd hown (hzero _)
          · cases hvalue
            exact absurd rfl (htext s)
      | foreign | member | set =>
          rcases Value.scalar_of_resolve hcategory with hvalue | ⟨_, _, hvalue, -⟩ <;> cases hvalue
  | present _ _ _ ih => exact ih hfast
  | items hcategory hnull hitems hlength hwritable h =>
      have hshaped := Shaped.items hcategory hnull hitems hlength hwritable h
      cases hfast with
      | @set kind derived items hkind hfixed =>
          have hmutable : (Value.sequence kind derived items).isMutable = false := by
            rcases hkind with rfl | rfl <;> rfl
          have hrebuilt : (Value.sequence kind derived items).isRebuilt = false := by
            rcases hkind with rfl | rfl <;> rfl
          apply eq_of_fixed hshaped
          · rw [hrebuilt, Bool.and_false]
          · intro inner hinner
            cases hinner with
            | here => exact hmutable
            | inside hchild hinner => exact hfixed _ hchild inner hinner
      | scalar | foreign | member =>
          rcases Value.list_of_resolve hnull hcategory with
            ⟨_, _, _, hvalue⟩ | ⟨_, _, _, hvalue⟩ | ⟨_, _, hvalue, -⟩ <;> cases hvalue
  | content | entries | fields | boxField => cases hfast

end Shaped

end RuleCheck
