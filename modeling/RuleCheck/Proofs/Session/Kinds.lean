import RuleCheck.Proofs.Category.Kinds
import RuleCheck.Proofs.Session.Parts
import RuleCheck.Proofs.Session.Places

/-! # What annotations make of records

Whatever is declared of a record, it is visited as a record, and its fields with their own rules.  Named tuples
that are declared as lists are the exception, and so are boxes that are declared as records.
-/

namespace RuleCheck

/-- A record is visited as one below its optional layers, each of which takes a level. -/
theorem Walk.exists_visitAt_absent {walk : Walk} (hregistry : walk.evaluator? = Registry.standard.get?)
    {head : RecordHead} {slots : List (String × Value)} {declared : Annotation}
    (hcategory : ((Value.record head slots).resolvePresent declared).category = .record)
    (writable : Bool) (rules : RuleSet) (rest : Nat) :
    ∃ levels ≤ rest, walk.visitAt rest ⟨writable, declared, .record head slots, rules⟩ =
      walk.visitAt levels ⟨writable, .absent, .record head slots, rules⟩ := by
  induction rest generalizing declared with
  | zero => exact ⟨0, Nat.le_refl 0, rfl⟩
  | succ rest ih =>
      rw [Value.resolvePresent] at hcategory
      split at hcategory
      · rename_i hlayer
        obtain ⟨levels, hle, hinner⟩ := ih hcategory
        have hoptional : walk.evaluator? .optional = some .optional := by
          rw [hregistry]
          rfl
        exact ⟨levels, Nat.le_succ_of_le hle,
          (visit_of_layer rest writable rules hoptional rfl hlayer.2).trans hinner⟩
      · have hserved : walk.evaluator? ((Value.record head slots).resolve declared).category = some .record := by
          rw [hregistry, hcategory]
          rfl
        have habsent : walk.evaluator? ((Value.record head slots).resolve .absent).category = some .record := by
          rw [hregistry]
          rfl
        refine ⟨rest + 1, Nat.le_refl _, ?_⟩
        rw [visitAt_of_served hserved, visitAt_of_served habsent]
        rfl

namespace Schema

variable {schema : Schema} (config : Config) (context : Value)

theorem category_record_declared {head : RecordHead} {declared : Annotation}
    (hlist : declared.category = .list → head.isTuple = false) (slots : List (String × Value)) :
    ((Value.record head slots).resolvePresent declared).category = .record := by
  have hnull : (Value.record head slots).isNull = false := rfl
  rw [Value.category_resolvePresent_eq hnull, Value.categoryAs_record hlist]

theorem visit_record_declared (hassign : schema.AssignsNothing) {head : RecordHead}
    {slots : List (String × Value)} {declared : Annotation}
    (hlist : declared.category = .list → head.isTuple = false) (writable : Bool) (rules : RuleSet) :
    schema.visit ⟨config, .standard⟩ context writable declared (.record head slots) rules =
      schema.visit ⟨config, .standard⟩ context writable .absent (.record head slots) rules := by
  obtain ⟨levels, -, hvisit⟩ := Walk.exists_visitAt_absent (schema.walk_registry config context)
    (category_record_declared hlist slots) writable rules
    (Walk.budget schema config.tagKey declared (.record head slots))
  have hends := @visit_ends schema hassign ⟨config, .standard⟩ Registry.grounded_standard context
    ⟨writable, declared, .record head slots, rules⟩
  have hsame : schema.visit ⟨config, .standard⟩ context writable declared (.record head slots) rules = _ :=
    hvisit
  rw [hsame] at hends
  exact hsame.trans (visit_eq_of_enough config context hassign ⟨writable, .absent, .record head slots, rules⟩
    hends)

end Schema

namespace Session

variable {schema : Schema} {session : Session} (config : Config)

/--
An annotation leaves the category of a value that is there as it is, except that an integer may count as
unsigned or as a fraction, a box that is declared as a record is taken for one, and a named tuple that is
declared as a list for a list.  Any other record is visited with the rules of its fields, as if nothing were
declared of it, with some levels less at most; and where hooks assign nothing, every call and every place that a
call comes to has levels enough in any case.
-/
theorem kinds_kept (hreach : Reachable schema session) :
    (∀ (value : Value) (declared : Annotation), value.isNull = false →
      (value.resolvePresent declared).category = value.categoryAs declared.category) ∧
    ∀ (head : RecordHead) (slots : List (String × Value)) (declared : Annotation),
      (declared.category = .list → head.isTuple = false) →
      (∀ context writable rules rest, ∃ levels ≤ rest,
        (schema.walk ⟨config, .standard⟩ context).visitAt rest
            ⟨writable, declared, .record head slots, rules⟩ =
          (schema.walk ⟨config, .standard⟩ context).visitAt levels
            ⟨writable, .absent, .record head slots, rules⟩) ∧
      (schema.AssignsNothing →
        (∀ rules context,
          (session.validateValue ⟨config, .standard⟩ (.record head slots) rules declared context).1 =
            (session.validateValue ⟨config, .standard⟩ (.record head slots) rules .absent context).1) ∧
        ∀ context place rest writable rules, schema.ComesTo ⟨config, .standard⟩ context place rest
            ⟨writable, declared, .record head slots, rules⟩ →
          (schema.walk ⟨config, .standard⟩ context).visitAt rest
              ⟨writable, declared, .record head slots, rules⟩ =
            schema.visit ⟨config, .standard⟩ context writable .absent (.record head slots) rules) := by
  refine ⟨fun value declared hnull => Value.category_resolvePresent_eq hnull declared,
    fun head slots declared hlist => ⟨fun context writable rules rest => ?_, fun hassign => ⟨?_, ?_⟩⟩⟩
  · exact Walk.exists_visitAt_absent (schema.walk_registry config context)
      (Schema.category_record_declared hlist slots) writable rules rest
  · intro rules context
    rw [hreach.validateValue_eq, hreach.validateValue_eq,
      Schema.visit_record_declared config context hassign hlist]
  · intro context place rest writable rules hcomes
    rw [hcomes.visitAt_eq hassign Registry.grounded_standard]
    exact Schema.visit_record_declared config context hassign hlist writable rules

/-- A record type of one text, and a named tuple of one text that must not be empty. -/
def tag : RecordHead :=
  ⟨"Tag", .data, false⟩

def entry : RecordHead :=
  ⟨"Entry", .namedTuple, true⟩

def tags : Schema :=
  ⟨[("Tag", .record tag), ("Entry", .record entry)],
    [⟨tag, [⟨"text", .bare (.builtIn .text), [("rules", "required")]⟩], none, none⟩,
      ⟨entry, [⟨"name", .annotated (.bare (.builtIn .text)) [.rules "required"], []⟩], none, none⟩]⟩

/-- An empty tag is refused although it is declared as an integer that may be missing. -/
theorem kinds_kept_tag :
    tags.AssignsNothing ∧ Reachable tags (.start tags) ∧
      ((start tags).validateValue .standard (.record tag [("text", .ofText "")]) ""
        (.union [.bare (.builtIn .int), .null]) .null).1.stop =
          some (.failed ⟨.missing, ["text"]⟩) := by
  have hassign : tags.AssignsNothing :=
    Schema.assignsNothing_of_methods (by simp [tags, RecordDecl.methods])
  have hsame := (((kinds_kept .standard .start).2 tag [("text", .ofText "")]
    (.union [.bare (.builtIn .int), .null]) fun _ => rfl).2 hassign).1 "" .null
  refine ⟨hassign, .start, ?_⟩
  rw [show Validator.standard = ⟨.standard, .standard⟩ from rfl, hsame]
  decide +kernel

/--
A box under the annotation of a record type is taken for a record, and a named tuple under that of a list for a
list, so that what its own field asks for is skipped.
-/
theorem kinds_not_kept :
    ((Value.box (.ofInt 1)).category.category = .reference ∧
      ((Value.box (.ofInt 1)).resolve (.bare (.record tag))).category = .record) ∧
    ((Value.record entry [("name", .ofText "")]).category.category = .record ∧
      ((Value.record entry [("name", .ofText "")]).resolve
        (.applied (.builtIn .list) [.bare (.builtIn .text)])).category = .list) ∧
    ((start tags).validateValue .standard (.record entry [("name", .ofText "")]) ""
      (.bare (.record entry)) .null).1.stop = some (.failed ⟨.missing, ["name"]⟩) ∧
    ((start tags).validateValue .standard (.record entry [("name", .ofText "")]) ""
      (.applied (.builtIn .list) [.bare (.builtIn .text)]) .null).1.stop = none := by
  decide +kernel

end Session

end RuleCheck
