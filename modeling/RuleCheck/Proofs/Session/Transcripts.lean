import RuleCheck.Proofs.Session.Twins
import RuleCheck.Session.Desk

/-! # What requests to a desk tell

A desk is asked one thing after the other.  Two desks that are asked the same of validators that are alike,
over schemas that are alike, cannot be told apart by their answers, their values or the calls of hooks at any
step, however often their caches drop what they held.
-/

namespace RuleCheck

/-! ## Requests -/

/-- Something that a desk is asked for. -/
inductive Request where
  | validate (validator : Validator) (names : List String)
  | validateContext (validator : Validator) (context : Value) (name : String)
  | validateValue (validator : Validator) (store : Bool) (name rules : String)
      (declared : Annotation) (context : Value)
  /-- A rule text is taken apart, if there is one, through the cache or not. -/
  | parse (cached : Bool) (text : Option String)
  | assign (name : String) (path : List Value) (new : Value)

/-- What a desk answers. -/
inductive Answer where
  /-- Nothing, or what stopped the call. -/
  | stopped (stop : Option Stop)
  | returned (outcome : Outcome)
  | tokens (rules : RuleSet)

/-- The tokens of a rule text, read through the cache or not; no text is as good as an empty one. -/
def Session.parse (session : Session) (cached : Bool) (text : Option String) : RuleSet × Session :=
  let config := { Config.standard with cacheRules := cached }
  (session.tokenize config (text.getD ""), session.afterRules config (text.getD ""))

namespace Desk

def answer (desk : Desk) : Request → Answer × Desk
  | .validate validator names =>
    let (stop, desk) := validate validator names desk
    (.stopped stop, desk)
  | .validateContext validator context name =>
    let (stop, desk) := desk.validateContext validator context name
    (.stopped stop, desk)
  | .validateValue validator store name rules declared context =>
    let (outcome, desk) := desk.validateValue validator store name rules declared context
    (.returned outcome, desk)
  | .parse cached text =>
    let (rules, session) := desk.session.parse cached text
    (.tokens rules, { desk with session := session })
  | .assign name path new =>
    let (stop, desk) := desk.assign name path new
    (.stopped stop, desk)

/-- The answers to requests in order, each with the desk as it is then. -/
def transcript (desk : Desk) : List Request → List (Answer × Desk)
  | [] => []
  | request :: requests =>
    let step := desk.answer request
    step :: step.2.transcript requests

end Desk

namespace Request

/-- Whether two requests ask the same, of validators that are alike. -/
inductive Alike (keys : String → Prop) : Request → Request → Prop
  | validate {validator validator' : Validator} (h : validator.Alike keys validator')
      (names : List String) : Alike keys (.validate validator names) (.validate validator' names)
  | validateContext {validator validator' : Validator} (h : validator.Alike keys validator')
      (context : Value) (name : String) :
      Alike keys (.validateContext validator context name) (.validateContext validator' context name)
  | validateValue {validator validator' : Validator} (h : validator.Alike keys validator')
      (store : Bool) (name rules : String) (declared : Annotation) (context : Value) :
      Alike keys (.validateValue validator store name rules declared context)
        (.validateValue validator' store name rules declared context)
  | parse (cached cached' : Bool) (text : Option String) :
      Alike keys (.parse cached text) (.parse cached' text)
  | assign (name : String) (path : List Value) (new : Value) :
      Alike keys (.assign name path new) (.assign name path new)

def logsFailures : Request → Bool
  | validate validator _ | validateContext validator _ _ | validateValue validator _ _ _ _ _ =>
    validator.config.logFailures
  | parse _ _ | assign _ _ _ => false

end Request

namespace LogEntry

/-- Whether an entry is about something else than the tokens of a rule text. -/
def isBesideTokens : LogEntry → Bool
  | tokenizing _ => false
  | _ => true

/-- Whether an entry is about something else than the tokens of a rule text or a refusal. -/
def isBesideRefusals : LogEntry → Bool
  | tokenizing _ | failed _ => false
  | _ => true

end LogEntry

namespace Desk

variable {keys : String → Prop} {keep : LogEntry → Bool} {schema schema' : Schema}
  {desk desk' : Desk}

/-! ## The same requests to two desks -/

/-- Two desks with the same values, whose sessions cannot be told apart. -/
structure Twin (keep : LogEntry → Bool) (schema schema' : Schema) (desk desk' : Desk) : Prop where
  values : desk.values = desk'.values
  session : Session.Twin keep schema schema' desk.session desk'.session

theorem Twin.get_eq (h : Twin keep schema schema' desk desk') (name : String) :
    desk.get name = desk'.get name := by
  unfold get
  rw [h.values]

theorem Twin.put (h : Twin keep schema schema' desk desk') {session session' : Session}
    (hsession : session.Twin keep schema schema' session') (name : String) (value : Value) :
    Twin keep schema schema' { desk.put name value with session := session }
      { desk'.put name value with session := session' } where
  values := by
    simp only [Desk.put, h.values]
  session := hsession

section Requests

variable (h : Twin keep schema schema' desk desk')
  (hkeep : ∀ text, keep (.tokenizing text) = false) (hschema : schema.Alike keys schema')

include h hkeep hschema

section Calls

variable {validator validator' : Validator} (hvalidator : validator.Alike keys validator')
  (hlogged : Session.LoggedAlike keep validator.config.logFailures validator'.config.logFailures)

include hvalidator hlogged

theorem Twin.validateContext (context : Value) (name : String) :
    let call := desk.validateContext validator context name
    let call' := desk'.validateContext validator' context name
    call.1 = call'.1 ∧ Twin keep schema schema' call.2 call'.2 := by
  obtain ⟨houtcome, hsession⟩ :=
    h.session.validateContext hkeep hschema hvalidator hlogged context (desk.get name)
  simp only [Desk.validateContext, ← h.get_eq name, ← houtcome, true_and]
  exact h.put hsession name _

theorem Twin.validate (names : List String) :
    let call := Desk.validate validator names desk
    let call' := Desk.validate validator' names desk'
    call.1 = call'.1 ∧ Twin keep schema schema' call.2 call'.2 := by
  induction names generalizing desk desk' with
  | nil => exact ⟨rfl, h⟩
  | cons name names ih =>
      obtain ⟨hstop, hdesk⟩ := h.validateContext hkeep hschema hvalidator hlogged .null name
      simp only [Desk.validate]
      generalize desk.validateContext validator .null name = call at hstop hdesk
      generalize desk'.validateContext validator' .null name = call' at hstop hdesk
      obtain ⟨stop, desk⟩ := call
      obtain ⟨stop', desk'⟩ := call'
      obtain rfl : stop = stop' := hstop
      cases stop with
      | some stop => exact ⟨rfl, hdesk⟩
      | none => exact ih hdesk

theorem Twin.validateValue (store : Bool) (name rules : String) (declared : Annotation)
    (context : Value) :
    let call := desk.validateValue validator store name rules declared context
    let call' := desk'.validateValue validator' store name rules declared context
    call.1 = call'.1 ∧ Twin keep schema schema' call.2 call'.2 := by
  obtain ⟨houtcome, hsession⟩ :=
    h.session.validateValue hkeep hschema hvalidator hlogged (desk.get name) rules declared context
  simp only [Desk.validateValue, ← h.get_eq name, ← houtcome, true_and]
  exact h.put hsession name _

end Calls

omit hschema in
theorem Twin.parse (cached cached' : Bool) (text : Option String) :
    let call := desk.session.parse cached text
    let call' := desk'.session.parse cached' text
    call.1 = call'.1 ∧ Session.Twin keep schema schema' call.2 call'.2 := by
  simp only [Session.parse, h.session.faithful.tokenize_eq, h.session.faithful'.tokenize_eq, true_and]
  exact h.session.afterRules hkeep _ _ _

omit hkeep hschema in
theorem Twin.assign (name : String) (path : List Value) (new : Value) :
    let call := desk.assign name path new
    let call' := desk'.assign name path new
    call.1 = call'.1 ∧ Twin keep schema schema' call.2 call'.2 := by
  simp only [Desk.assign, ← h.get_eq name]
  split
  · exact ⟨rfl, h.put h.session name _⟩
  · exact ⟨rfl, h⟩

/-- The same request is answered the same, and leaves desks that cannot be told apart. -/
theorem Twin.answer {request request' : Request} (hrequest : request.Alike keys request')
    (hlogged : Session.LoggedAlike keep request.logsFailures request'.logsFailures) :
    (desk.answer request).1 = (desk'.answer request').1 ∧
      Twin keep schema schema' (desk.answer request).2 (desk'.answer request').2 := by
  cases hrequest with
  | validate hvalidator names =>
      have hcall := h.validate hkeep hschema hvalidator hlogged names
      exact ⟨congrArg Answer.stopped hcall.1, hcall.2⟩
  | validateContext hvalidator context name =>
      have hcall := h.validateContext hkeep hschema hvalidator hlogged context name
      exact ⟨congrArg Answer.stopped hcall.1, hcall.2⟩
  | validateValue hvalidator store name rules declared context =>
      have hcall := h.validateValue hkeep hschema hvalidator hlogged store name rules declared context
      exact ⟨congrArg Answer.returned hcall.1, hcall.2⟩
  | parse cached cached' text =>
      have hcall := h.parse hkeep cached cached' text
      exact ⟨congrArg Answer.tokens hcall.1, h.values, hcall.2⟩
  | assign name path new =>
      have hcall := h.assign name path new
      exact ⟨congrArg Answer.stopped hcall.1, hcall.2⟩

theorem Twin.transcript {requests requests' : List Request}
    (hrequests : List.Forall₂ (fun request request' => request.Alike keys request' ∧
      Session.LoggedAlike keep request.logsFailures request'.logsFailures) requests requests') :
    List.Forall₂ (fun step step' => step.1 = step'.1 ∧ Twin keep schema schema' step.2 step'.2)
      (desk.transcript requests) (desk'.transcript requests') := by
  induction hrequests generalizing desk desk' with
  | nil => exact .nil
  | cons hrequest _ ih =>
      have hstep := h.answer hkeep hschema hrequest.1 hrequest.2
      exact .cons hstep (ih hstep.2)

end Requests

/--
Whether rule texts are read through the cache, whether refusals are logged, and what is noted under keys
that no validator is set to cannot be noticed: step by step the answers, the values and the calls of hooks
are the same, and so is the log, up to the tokens of rule texts and the refusals.  If refusals are logged
alike, the logs differ in the tokens of rule texts alone.  At every step the caches hold only what is declared,
and no more than they can.
-/
theorem transcripts_agree (hschema : schema.Alike keys schema') {requests requests' : List Request}
    (hrequests : List.Forall₂ (Request.Alike keys) requests requests')
    (values : List (String × Value)) :
    let desk : Desk := ⟨values, .start schema⟩
    let desk' : Desk := ⟨values, .start schema'⟩
    List.Forall₂ (fun step step' => step.1 = step'.1 ∧
        Twin LogEntry.isBesideRefusals schema schema' step.2 step'.2)
      (desk.transcript requests) (desk'.transcript requests') ∧
    (requests.map Request.logsFailures = requests'.map Request.logsFailures →
      List.Forall₂ (fun step step' => step.2.session.log.filter LogEntry.isBesideTokens =
          step'.2.session.log.filter LogEntry.isBesideTokens)
        (desk.transcript requests) (desk'.transcript requests')) := by
  intro desk desk'
  constructor
  · have hstart : Twin LogEntry.isBesideRefusals schema schema' desk desk' :=
      ⟨rfl, Session.twin_start _ schema schema'⟩
    refine hstart.transcript (fun _ => rfl) hschema (hrequests.imp ?_)
    intro request request' hrequest
    exact ⟨hrequest, fun failure hlooked => by cases hlooked⟩
  · intro hlogged
    have hstart : Twin LogEntry.isBesideTokens schema schema' desk desk' :=
      ⟨rfl, Session.twin_start _ schema schema'⟩
    have hboth : List.Forall₂ (fun request request' => request.Alike keys request' ∧
        Session.LoggedAlike LogEntry.isBesideTokens request.logsFailures request'.logsFailures)
        requests requests' := by
      induction hrequests with
      | nil => exact .nil
      | cons hrequest _ ih =>
          obtain ⟨hfirst, hrest⟩ := List.cons.inj hlogged
          exact .cons ⟨hrequest, fun _ _ => hfirst⟩ (ih hrest)
    refine (hstart.transcript (fun _ => rfl) hschema hboth).imp ?_
    intro step step' hstep
    exact hstep.2.session.log

/-- Tickets with a seat that must be given; what else is noted of the seat can be chosen. -/
def tickets (remarks : List (String × String)) : Schema :=
  ⟨[], [⟨⟨"Ticket", .data, false⟩,
    [⟨"seat", .bare (.builtIn .text), ("rules", "required,toupper") :: remarks⟩], some (.ofActions []), none⟩]⟩

def ticket (seat : String) : Value :=
  .record ⟨"Ticket", .data, false⟩ [("seat", .ofText seat)]

/-- What is asked for about two tickets: both are checked, one is changed, and both are checked again. -/
def ticketRequests (config : Config) : List Request :=
  [.validate ⟨config, .standard⟩ ["first", "second"], .parse config.cacheRules (some "required"),
    .assign "first" [.ofText "seat"] (.ofText ""),
    .validateValue ⟨config, .standard⟩ true "second" "required" .absent .null,
    .validateContext ⟨config, .standard⟩ .null "first"]

/-- Tickets are checked through the caches as without them, whatever is remarked about seats. -/
theorem transcripts_agree_tickets :
    let values := [("first", ticket "a1"), ("second", ticket "b2")]
    let desk : Desk := ⟨values, .start (tickets [])⟩
    let desk' : Desk := ⟨values, .start (tickets [("doc", "window")])⟩
    (tickets []).Alike (· = "rules") (tickets [("doc", "window")]) ∧
      List.Forall₂ (Request.Alike (· = "rules")) (ticketRequests ⟨"rules", true, false⟩)
        (ticketRequests ⟨"rules", false, true⟩) ∧
      List.Forall₂ (fun step step' => step.1 = step'.1 ∧
          Twin LogEntry.isBesideRefusals (tickets []) (tickets [("doc", "window")]) step.2 step'.2)
        (desk.transcript (ticketRequests ⟨"rules", true, false⟩))
        (desk'.transcript (ticketRequests ⟨"rules", false, true⟩)) := by
  have hschema : (tickets []).Alike (· = "rules") (tickets [("doc", "window")]) :=
    ⟨rfl, .cons ⟨rfl, .cons ⟨rfl, rfl, by rintro _ rfl; rfl⟩ .nil, rfl, rfl⟩ .nil⟩
  have hvalidator : Validator.Alike (· = "rules") ⟨⟨"rules", true, false⟩, .standard⟩
      ⟨⟨"rules", false, true⟩, .standard⟩ :=
    ⟨rfl, rfl, rfl⟩
  have hrequests : List.Forall₂ (Request.Alike (· = "rules")) (ticketRequests ⟨"rules", true, false⟩)
      (ticketRequests ⟨"rules", false, true⟩) :=
    .cons (.validate hvalidator _) (.cons (.parse _ _ _) (.cons (.assign _ _ _)
      (.cons (.validateValue hvalidator _ _ _ _ _) (.cons (.validateContext hvalidator _ _) .nil))))
  exact ⟨hschema, hrequests, (transcripts_agree hschema hrequests _).1⟩

end Desk

end RuleCheck
