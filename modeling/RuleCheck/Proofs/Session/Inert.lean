import RuleCheck.Proofs.Session.Places
import RuleCheck.Proofs.Session.Tokens
import RuleCheck.Proofs.Walk.Lockstep
import RuleCheck.Proofs.Walk.Reworded

/-! # Tokens that say nothing, in calls and in declarations

Tokens that are not known can stand anywhere among the rules of a call and among the rules of declared fields.
Neither what comes of a call depends on them nor which hooks it calls, as long as they leave the equal
members of a union equal.
-/

namespace RuleCheck

/--
Whether two record types are declared alike, up to tokens that say nothing in the rules of their fields, wherever
these rules are written.
-/
structure RecordDecl.Reworded (classes : String → Option Class) (tagKey : String) (decl decl' : RecordDecl) :
    Prop where
  head : decl.head = decl'.head
  fields : List.Forall₂ Field.Reworded (decl.resolved classes tagKey) (decl'.resolved classes tagKey)
  selfHook : decl.selfHook = decl'.selfHook
  contextHook : decl.contextHook = decl'.contextHook

/-- Whether two schemas declare the same record types, up to tokens that say nothing. -/
structure Schema.Reworded (tagKey : String) (schema schema' : Schema) : Prop where
  classes : schema.classes = schema'.classes
  records : List.Forall₂ (RecordDecl.Reworded schema.class? tagKey) schema.records schema'.records

theorem Field.Reworded.refl (field : Field) : field.Reworded field :=
  ⟨rfl, .refl _, .refl _⟩

theorem RecordDecl.Reworded.hooks_eq {classes : String → Option Class} {tagKey : String}
    {decl decl' : RecordDecl} (h : decl.Reworded classes tagKey decl') : decl.hooks = decl'.hooks := by
  rw [hooks, hooks, h.selfHook, h.contextHook]

namespace Schema.Reworded

variable {schema schema' : Schema} {tagKey : String}

theorem class?_eq (h : schema.Reworded tagKey schema') : schema'.class? = schema.class? := by
  funext name
  rw [class?, class?, h.classes]

theorem record?_reworded (h : schema.Reworded tagKey schema') (name : String) :
    (schema.record? name = none ∧ schema'.record? name = none) ∨
      ∃ decl decl', schema.record? name = some decl ∧ schema'.record? name = some decl' ∧
        decl.Reworded schema.class? tagKey decl' := by
  have hrecords := h.records
  unfold record?
  generalize schema.records = records at hrecords
  generalize schema'.records = records' at hrecords
  induction hrecords with
  | nil => exact .inl ⟨rfl, rfl⟩
  | @cons decl decl' records records' hdecl _ ih =>
      rw [List.find?_cons, List.find?_cons, hdecl.head]
      cases decl'.head.name == name with
      | true => exact .inr ⟨decl, decl', rfl, rfl, hdecl⟩
      | false => exact ih

theorem view?_reworded (h : schema.Reworded tagKey schema') (base : Class) :
    (schema.view? tagKey base = none ∧ schema'.view? tagKey base = none) ∨
      ∃ view view', schema.view? tagKey base = some view ∧ schema'.view? tagKey base = some view' ∧
        view.Reworded view' := by
  cases base with
  | record head =>
      refine .inr ⟨_, _, rfl, rfl, ?_⟩
      rcases h.record?_reworded head.name with ⟨hnone, hnone'⟩ | ⟨decl, decl', hsome, hsome', hdecl⟩
      · simp only [hnone, hnone', fields]
        exact ⟨rfl, .nil, rfl, rfl⟩
      · simp only [hsome, hsome', fields, h.class?_eq]
        exact ⟨rfl, hdecl.fields, hdecl.selfHook, hdecl.contextHook⟩
  | builtIn base =>
      cases base
      case box => exact .inr ⟨_, _, rfl, rfl, rfl, .cons (.refl _) .nil, rfl, rfl⟩
      all_goals exact .inl ⟨rfl, rfl⟩
  | derived name base => exact .inl ⟨rfl, rfl⟩
  | enumeration name mixin => exact .inl ⟨rfl, rfl⟩

theorem walk_reworded {validator : Validator} (h : schema.Reworded validator.config.tagKey schema')
    (context : Value) : (schema.walk validator context).Reworded (schema'.walk validator context) :=
  ⟨rfl, rfl, rfl, rfl, h.view?_reworded⟩

theorem budget_eq (h : schema.Reworded tagKey schema')
    (hsize : schema.annotationSize tagKey = schema'.annotationSize tagKey) (declared : Annotation)
    (value : Value) : Walk.budget schema tagKey declared value = Walk.budget schema' tagKey declared value := by
  have hdepth : schema.assignedDepth = schema'.assignedDepth := by
    have hrecords := h.records
    unfold assignedDepth
    generalize schema.records = records at hrecords
    generalize schema'.records = records' at hrecords
    congr 1
    induction hrecords with
    | nil => rfl
    | cons hdecl _ ih => rw [List.map_cons, List.map_cons, RecordDecl.assignedDepth, RecordDecl.assignedDepth,
        hdecl.hooks_eq, ih]
  rw [Walk.budget, Walk.budget, hsize, hdepth]

theorem assignsNothing (h : schema.Reworded tagKey schema') (hassign : schema.AssignsNothing) :
    schema'.AssignsNothing := by
  have hrecords := h.records
  unfold AssignsNothing at hassign ⊢
  generalize schema.records = records at hrecords hassign
  generalize schema'.records = records' at hrecords
  induction hrecords with
  | nil => simp
  | cons hdecl _ ih =>
      rw [List.forall_mem_cons] at hassign ⊢
      rw [← hdecl.hooks_eq]
      exact ⟨hassign.1, ih hassign.2⟩

/-- The visits of calls under rules that say the same, if there are levels enough for both. -/
theorem visit_sameEffect {validator : Validator} (h : schema.Reworded validator.config.tagKey schema')
    {rules rules' : RuleSet} (hrules : rules.Alike rules') (context : Value) (writable : Bool)
    (declared : Annotation) (value : Value)
    (hlevels : schema.annotationSize validator.config.tagKey =
        schema'.annotationSize validator.config.tagKey ∨
      (schema.visit validator context writable declared value rules).stop ≠ some (.fault .tooDeep) ∧
        (schema'.visit validator context writable declared value rules').stop ≠ some (.fault .tooDeep)) :
    (schema.visit validator context writable declared value rules).SameEffect
      (schema'.visit validator context writable declared value rules') := by
  have hsame (levels : Nat) := (h.walk_reworded context).sameBelow levels writable declared declared value
    rules rules' (.refl declared) hrules
  unfold visit at hlevels ⊢
  rcases hlevels with hsize | ⟨hfirst, hsecond⟩
  · rw [h.budget_eq hsize]
    exact hsame _
  · generalize Walk.budget schema validator.config.tagKey declared value = levels at hfirst ⊢
    generalize Walk.budget schema' validator.config.tagKey declared value = levels' at hsecond ⊢
    rw [Walk.visit_eq_of_levels _ (Nat.le_max_left levels levels') hfirst,
      Walk.visit_eq_of_levels _ (Nat.le_max_right levels levels') hsecond]
    exact hsame _

end Schema.Reworded

namespace Session

variable {schema schema' : Schema} {session session' : Session}

/--
Tokens that say nothing can be inserted among the rules of a call and among the rules of declared fields: the value
that comes back, the error, what the object holds afterwards and the calls of hooks stay as they are.  Where rules
are written as markers that were not there before, annotations get more parts and calls more levels; then this holds
unless one of the calls runs out of levels, which no call does if hooks assign nothing.  Equal members of a union count
as one; of markers in a union is asked that they do not make one member of several, or several of one.
-/
theorem validateValue_inert (hreach : Reachable schema session) (hreach' : Reachable schema' session')
    (validator : Validator) (hschemas : schema.Reworded validator.config.tagKey schema')
    {rules rules' : String} (hrules : (RuleSet.parse rules).Alike (.parse rules')) (value : Value)
    (declared : Annotation) (context : Value) :
    let first := session.validateValue validator value rules declared context
    let second := session'.validateValue validator value rules' declared context
    (schema.annotationSize validator.config.tagKey = schema'.annotationSize validator.config.tagKey ∨
        first.1.stop ≠ some (.fault .tooDeep) ∧ second.1.stop ≠ some (.fault .tooDeep) →
      second.1 = first.1 ∧
        ∃ calls, first.2.trace = session.trace ++ calls ∧ second.2.trace = session'.trace ++ calls) ∧
    (schema.AssignsNothing → validator.registry.Grounded →
      first.1.stop ≠ some (.fault .tooDeep) ∧ second.1.stop ≠ some (.fault .tooDeep)) := by
  intro first second
  have hfirst := hreach.validateValue_eq validator value rules declared context
  have hsecond := hreach'.validateValue_eq validator value rules' declared context
  have htrace := hreach.trace_validateValue validator value rules declared context
  have htrace' := hreach'.trace_validateValue validator value rules' declared context
  simp only [first, second, hfirst, hsecond]
  refine ⟨fun hlevels => ?_, fun hassign hground => ⟨?_, ?_⟩⟩
  · have hsame := hschemas.visit_sameEffect hrules context true declared value hlevels
    refine ⟨by rw [hsame.value, hsame.stop], _, htrace, ?_⟩
    rw [htrace', hsame.calls]
  · exact Schema.visit_ends hassign hground context ⟨true, declared, value, .parse rules⟩
  · exact Schema.visit_ends (hschemas.assignsNothing hassign) hground context
      ⟨true, declared, value, .parse rules'⟩

/-- Labels of the same two texts, with words at their fields that no one knows. -/
def wordyLabels : Schema :=
  ⟨[("Label", .record label)],
    [⟨label, [⟨"front", .annotated (.bare (.builtIn .text)) [.rules "shiny,-x"], []⟩,
        ⟨"back", .bare (.builtIn .text), [("rules", "to be done")]⟩],
      some (.ofActions []), none⟩]⟩

/-- Words that no one knows change nothing about a label. -/
theorem validateValue_inert_label :
    labels.Reworded "rules" wordyLabels ∧
      (RuleSet.parse "on front,toupper").Alike (.parse "loud,on front,-,toupper,main") ∧
      ((start wordyLabels).validateValue .standard
          (.record label [("front", .ofText " a "), ("back", .null)])
          "loud,on front,-,toupper,main" .absent .null).1 =
        ((start labels).validateValue .standard
          (.record label [("front", .ofText " a "), ("back", .null)]) "on front,toupper" .absent .null).1 := by
  have hschemas : labels.Reworded "rules" wordyLabels := by
    refine ⟨rfl, .cons ⟨rfl, ?_, rfl, rfl⟩ .nil⟩
    have hmarked : Annotation.Reworded (.bare (.builtIn .text))
        (.annotate (.bare (.builtIn .text)) [.rules "shiny,-x"]) := .marked rfl (.refl _)
    exact .cons ⟨rfl, hmarked, by decide +kernel⟩ (.cons ⟨rfl, .refl _, by decide +kernel⟩ .nil)
  have hrules : (RuleSet.parse "on front,toupper").Alike (.parse "loud,on front,-,toupper,main") := by
    decide +kernel
  have hassign : labels.AssignsNothing :=
    Schema.assignsNothing_of_methods (by simp [labels, RecordDecl.methods, Hook.assignsNothing_ofActions])
  obtain ⟨hsame, hends⟩ := validateValue_inert (@Reachable.start labels) (@Reachable.start wordyLabels)
    .standard hschemas hrules (.record label [("front", .ofText " a "), ("back", .null)]) .absent .null
  exact ⟨hschemas, hrules, (hsame (.inr (hends hassign Registry.grounded_standard))).1⟩

def badge : RecordHead :=
  ⟨"Badge", .data, false⟩

/-- Badges with the default name `A`, which is a text with one of two markers. -/
def badgesMarked (first second : String) : Schema :=
  ⟨[("Badge", .record badge)],
    [⟨badge, [⟨"name", .unite [.annotated (.bare (.builtIn .text)) [.rules first],
      .annotated (.bare (.builtIn .text)) [.rules second]], [("rules", "default=A")]⟩], none, none⟩]⟩

/--
A word that no one knows, inserted into one of two equal members of a union, makes two members of them: a name that is
missing is then no text, and does not get the default.
-/
theorem union_members_split :
    let nameOf := fun second => (((start (badgesMarked "foo" second)).validateValue .standard
      (.record badge [("name", .null)]) "" .absent .null).1.value.fieldContent? "name").bind Value.scalar?
    (RuleSet.parse "foo").Alike (.parse "foo,bar") ∧ nameOf "foo" = some (.text "A") ∧ nameOf "foo,bar" = none :=
  ⟨by decide +kernel, by decide +kernel, by decide +kernel⟩

end Session

end RuleCheck
