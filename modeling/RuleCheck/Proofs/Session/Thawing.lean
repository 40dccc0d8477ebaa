import RuleCheck.Proofs.Session.Declared
import RuleCheck.Proofs.Thaw.NamedTuples

/-! # Rebuilding and writing in place

A call on a value whose frozen records and tuples have to be rebuilt has the same outcome as the call on
the value with these types thawed and with lists for the tuples, where all is written in place.  The
exception is a named tuple that stands for a list: rebuilt, it is a record no more.
-/

namespace RuleCheck

variable {p : String → Bool}

namespace Schema

variable {schema : Schema}

theorem view?_thaw (hclosed : schema.Closed) (p : String → Bool) (tagKey : String) (base : Class) :
    (schema.thaw p).view? tagKey (base.thaw p) = (schema.view? tagKey base).map (RecordView.thaw p) := by
  cases base with
  | record head =>
      have hfields := (fields_thaw hclosed p tagKey head.name).1
      have hname : (head.thaw p).name = head.name := rfl
      simp only [Class.thaw, view?, hname, hfields, record?_thaw]
      cases hdecl : schema.record? head.name with
      | none => rfl
      | some decl => simp [RecordView.thaw, RecordDecl.selfHook_thaw, RecordDecl.contextHook_thaw]
  | builtIn base => cases base <;> rfl
  | derived name base => rfl
  | enumeration name mixin => rfl

theorem mentions_of_view (hclosed : schema.Closed) {tagKey : String} {base : Class}
    {view : RecordView} (hview : schema.view? tagKey base = some view) :
    ∀ field ∈ view.fields, field.declared.Mentions schema.Declares := by
  rcases fields_of_view hview with ⟨name, hfields⟩ | hfields <;> rw [hfields]
  · exact (fields_thaw hclosed (fun _ => false) tagKey name).2
  · have hnone : boxField.declared.heads = [] := rfl
    intro field hfield head hhead
    rw [List.mem_singleton.1 hfield, hnone] at hhead
    cases hhead

/-- Without hooks, the walk over the thawed declarations goes beside the one over the declarations. -/
theorem walk_thawsTo (hhooks : schema.hasHooks = false) (hclosed : schema.Closed)
    (p : String → Bool) (config : Config) (context context' : Value) :
    (schema.walk ⟨config, .standard⟩ context).ThawsTo p schema.Declares
      ((schema.thaw p).walk ⟨config, .standard⟩ context') where
  separates := separates_declares p schema
  evaluator? := rfl
  evaluator?_eq := rfl
  tagKey_eq := rfl
  tokenize_eq := rfl
  view? := view?_thaw hclosed p config.tagKey
  mentions _ _ hview := mentions_of_view hclosed hview
  hookless _ _ hview := hookless_of_hasHooks hhooks hview

theorem budget_thaw (hclosed : schema.Closed) (tagKey : String) {value value' : Value}
    (hvalue : Thaws p value value') (declared : Annotation) :
    Walk.budget (schema.thaw p) tagKey (declared.thaw p) value' =
      Walk.budget schema tagKey declared value := by
  unfold Walk.budget
  rw [hvalue.depth_eq, assignedDepth_thaw, annotationSize_thaw hclosed, Annotation.size_thaw]

theorem walk_assignsNothing_of_hasHooks (hhooks : schema.hasHooks = false) (config : Config)
    (context : Value) : (schema.walk ⟨config, .standard⟩ context).AssignsNothing :=
  walk_assignsNothing config context (assignsNothing_of_hasHooks hhooks)

/-- In a call no named tuple is rebuilt that stands for a list. -/
def KeepsNamedTuples (schema : Schema) (config : Config) (context : Value) (declared : Annotation)
    (value : Value) (rules : String) : Prop :=
  (schema.walk ⟨config, .standard⟩ context).KeepsNamedTuples
    (Walk.budget schema config.tagKey declared value) ⟨true, declared, value, .parse rules⟩

theorem keepsNamedTuples_of_none (hhooks : schema.hasHooks = false) (config : Config)
    (context : Value) (declared : Annotation) {value : Value} (rules : String)
    (hvalue : value.NoNamedTuples) : schema.KeepsNamedTuples config context declared value rules :=
  Walk.keepsNamedTuples_of_none rfl (walk_assignsNothing_of_hasHooks hhooks config context) hvalue

end Schema

namespace Session

variable {schema : Schema}

/--
Whatever has to be rebuilt can as well be thawed and written in place, where it is reached in one way only: the two calls are stopped by the
same thing, and if by nothing, the values that they return differ just as the values before.
-/
theorem validateValue_thaws (hhooks : schema.hasHooks = false) (hclosed : schema.Closed)
    (config : Config) {first second : Session} (hfirst : Reachable schema first)
    (hsecond : Reachable (schema.thaw p) second) {value value' : Value}
    (hvalue : Thaws p value value') {declared : Annotation}
    (hdeclared : declared.Mentions schema.Declares) (rules : String) (context context' : Value)
    (hkept : schema.KeepsNamedTuples config context declared value rules) :
    let rebuilt := (first.validateValue ⟨config, .standard⟩ value rules declared context).1
    let written :=
      (second.validateValue ⟨config, .standard⟩ value' rules (declared.thaw p) context').1
    written.stop = rebuilt.stop ∧ (rebuilt.stop = none → Thaws p rebuilt.value written.value) := by
  have hwalks := Schema.walk_thawsTo hhooks hclosed p config context context'
  let place : Place := ⟨true, declared, value, .parse rules⟩
  have hopen : place.Open := .inl rfl
  have hmatch := Walk.matches_visit hwalks (Walk.budget schema config.tagKey declared value)
    hdeclared hopen hvalue hkept
  have hbudget := Schema.budget_thaw hclosed config.tagKey hvalue declared
  rw [hfirst.validateValue_eq, hsecond.validateValue_eq]
  simp only [Schema.visit]
  rw [hbudget]
  exact ⟨hmatch.stop_eq, hmatch.thaws⟩

/-! ## A tuple of frozen records, and a named tuple that is rebuilt -/

def frozenName : RecordHead :=
  ⟨"Name", .data, true⟩

def openPair : RecordHead :=
  ⟨"Pair", .namedTuple, true⟩

def tableRow : RecordHead :=
  ⟨"Row", .data, false⟩

/-- A record type whose row must not be zero, before and after a visit with these rules. -/
def plainTable : RecordHead :=
  ⟨"Table", .data, false⟩

def tables : Schema :=
  ⟨[("Name", .record frozenName), ("Pair", .record openPair), ("Row", .record tableRow),
      ("Table", .record plainTable)],
    [⟨frozenName, [⟨"text", .bare (.builtIn .text), []⟩], none, none⟩,
      ⟨openPair, [⟨"name", .any, []⟩], none, none⟩,
      ⟨tableRow, [⟨"cells", .bare (.builtIn .tuple), []⟩], none, none⟩,
      ⟨plainTable, [⟨"row", .annotated (.bare (.record tableRow)) [.rules "main,required"], []⟩],
        none, none⟩]⟩

def blankName (head : RecordHead) : Value :=
  .record head [("text", .ofText "  ")]

/-- A table whose only row holds a named tuple of a blank name. -/
def blankTable (head : RecordHead) : Value :=
  .record plainTable [("row", .record tableRow [("cells", .record openPair
    [("name", blankName head)])])]

theorem tables_closed : tables.Closed := by
  refine ⟨?_, ?_⟩
  · unfold Schema.Declares
    decide
  · unfold Annotation.Mentions Schema.Declares
    decide

/-- A tuple of a frozen name is rebuilt to what a list of a thawed name becomes in its place. -/
theorem validateValue_thaws_names :
    tables.hasHooks = false ∧ tables.Closed ∧
      ((start (tables.thaw (· == "Name"))).validateValue .standard
        (.sequence .list none [blankName (frozenName.thaw (· == "Name"))]) "" .absent .null).1.stop =
          none ∧
      Thaws (· == "Name")
        ((start tables).validateValue .standard (.sequence .tuple none [blankName frozenName]) ""
          .absent .null).1.value
        ((start (tables.thaw (· == "Name"))).validateValue .standard
          (.sequence .list none [blankName (frozenName.thaw (· == "Name"))]) "" .absent .null).1.value := by
  have hhooks : tables.hasHooks = false := rfl
  have hname : Thaws (· == "Name") (blankName frozenName)
      (blankName (frozenName.thaw (· == "Name"))) :=
    .record frozenName (.cons "text" (.scalar _ _) .nil)
  have hvalue : Thaws (· == "Name") (.sequence .tuple none [blankName frozenName])
      (.sequence .list none [blankName (frozenName.thaw (· == "Name"))]) :=
    .tuple (.inr rfl) none none (.cons hname .nil)
  have hplain : (Value.sequence .tuple none [blankName frozenName]).NoNamedTuples := by
    refine Value.noNamedTuples_sequence ?_ _ _
    intro item hitem
    rw [List.mem_singleton.1 hitem]
    refine Value.noNamedTuples_of_children ?_ ?_
    · rintro head slots ⟨⟩
      rfl
    · intro child hchild
      rw [List.mem_singleton.1 hchild]
      exact Value.noNamedTuples_ofScalar _
  have hkept := Schema.keepsNamedTuples_of_none hhooks .standard .null .absent "" hplain
  have hboth := validateValue_thaws hhooks tables_closed .standard .start .start hvalue
    Annotation.mentions_absent "" .null .null hkept
  have hpass : ((start tables).validateValue .standard
      (.sequence .tuple none [blankName frozenName]) "" .absent .null).1.stop = none := by
    decide +kernel
  exact ⟨hhooks, tables_closed, hboth.1.trans hpass, hboth.2 hpass⟩

/-- A named tuple that was rebuilt is not zero, and one whose item was written in place is. -/
theorem rebuilt_namedTuple_differs :
    tables.hasHooks = false ∧ tables.Closed ∧
      Thaws (· == "Name") (blankTable frozenName) (blankTable (frozenName.thaw (· == "Name"))) ∧
      ((start tables).validateValue .standard (blankTable frozenName) "" .absent .null).1.stop =
        none ∧
      ((start (tables.thaw (· == "Name"))).validateValue .standard
        (blankTable (frozenName.thaw (· == "Name"))) "" .absent .null).1.stop =
          some (.failed ⟨.missing, ["row"]⟩) := by
  have hname : Thaws (· == "Name") (blankName frozenName)
      (blankName (frozenName.thaw (· == "Name"))) :=
    .record frozenName (.cons "text" (.scalar _ _) .nil)
  refine ⟨rfl, tables_closed, ?_, by decide +kernel, by decide +kernel⟩
  exact .record plainTable (.cons "row" (.record tableRow (.cons "cells"
    (.record openPair (.cons "name" hname .nil)) .nil)) .nil)

end Session

end RuleCheck
