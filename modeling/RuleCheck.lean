import RuleCheck.Annotation
import RuleCheck.Category
import RuleCheck.Class
import RuleCheck.Comparison
import RuleCheck.Evaluator
import RuleCheck.Failure
import RuleCheck.Handle
import RuleCheck.Hook
import RuleCheck.Hook.Actions
import RuleCheck.Literal.Duration
import RuleCheck.Literal.Error
import RuleCheck.Literal.Moment
import RuleCheck.Literal.Number
import RuleCheck.Number.Binary64
import RuleCheck.Number.Decimal28
import RuleCheck.Number.DecimalText
import RuleCheck.Number.Rounding
import RuleCheck.Pattern.CharSet
import RuleCheck.Pattern.CharTest
import RuleCheck.Pattern.Error
import RuleCheck.Pattern.Escape
import RuleCheck.Pattern.Matching
import RuleCheck.Pattern.Parser
import RuleCheck.Pattern.Scanner
import RuleCheck.Pattern.Syntax
import RuleCheck.Proofs.Category.Resolution
import RuleCheck.Proofs.Category.Stable
import RuleCheck.Proofs.Session.Budget
import RuleCheck.Proofs.Session.Declared
import RuleCheck.Proofs.Session.EntryPoints
import RuleCheck.Proofs.Session.Faults
import RuleCheck.Proofs.Session.Reachable
import RuleCheck.Proofs.Session.Soundness
import RuleCheck.Proofs.Session.Thawing
import RuleCheck.Proofs.Text.Folding
import RuleCheck.Proofs.Text.Fronts
import RuleCheck.Proofs.Thaw.Annotations
import RuleCheck.Proofs.Thaw.Categories
import RuleCheck.Proofs.Thaw.NamedTuples
import RuleCheck.Proofs.Thaw.Schemas
import RuleCheck.Proofs.Thaw.Simulation
import RuleCheck.Proofs.Thaw.Values
import RuleCheck.Proofs.Thaw.Visits
import RuleCheck.Proofs.Value.Depth
import RuleCheck.Proofs.Value.Fields
import RuleCheck.Proofs.Value.Graft
import RuleCheck.Proofs.Visit.Checked
import RuleCheck.Proofs.Visit.Escaping
import RuleCheck.Proofs.Visit.Fields
import RuleCheck.Proofs.Visit.Lengths
import RuleCheck.Proofs.Visit.Parts
import RuleCheck.Proofs.Visit.Passing
import RuleCheck.Proofs.Visit.Repeated
import RuleCheck.Proofs.Visit.ScalarFaults
import RuleCheck.Proofs.Visit.Settling
import RuleCheck.Proofs.Visit.Shifted
import RuleCheck.Proofs.Visit.Stopping
import RuleCheck.Proofs.Walk.Calls
import RuleCheck.Proofs.Walk.Frame
import RuleCheck.Proofs.Walk.Kept
import RuleCheck.Proofs.Walk.Levels
import RuleCheck.Proofs.Walk.Lockstep
import RuleCheck.Proofs.Walk.Quiet
import RuleCheck.Proofs.Walk.Refusals
import RuleCheck.Proofs.Walk.Sound
import RuleCheck.Proofs.Walk.Views
import RuleCheck.RuleSet
import RuleCheck.Scalar
import RuleCheck.ScalarKind
import RuleCheck.Schema
import RuleCheck.Session
import RuleCheck.Session.Cache
import RuleCheck.Session.Desk
import RuleCheck.Session.LogEntry
import RuleCheck.Text.Blank
import RuleCheck.Text.Case
import RuleCheck.Text.Case.Table
import RuleCheck.Text.Cut
import RuleCheck.Text.Digit
import RuleCheck.Text.HiddenTable
import RuleCheck.Text.IdentifierTable
import RuleCheck.Text.Letter
import RuleCheck.Text.LetterTable
import RuleCheck.Text.Quoted
import RuleCheck.Text.Ranges
import RuleCheck.Time.Calendar
import RuleCheck.Time.Duration
import RuleCheck.Time.Moment
import RuleCheck.Validator
import RuleCheck.Value
import RuleCheck.Value.Assign
import RuleCheck.Value.Depth
import RuleCheck.Value.Display
import RuleCheck.Value.Equality
import RuleCheck.Value.Graft
import RuleCheck.Value.Zero
import RuleCheck.Visit
import RuleCheck.Visit.Compare
import RuleCheck.Visit.Record
import RuleCheck.Visit.Scalar
import RuleCheck.Visit.Sequence
import RuleCheck.Walk
import RuleCheck.Walk.Budget
import RuleCheck.Proofs.Walk.Repeated
import RuleCheck.Proofs.Session.Repeated
import RuleCheck.Proofs.Shape.Shaped
import RuleCheck.Proofs.Shape.Visits
import RuleCheck.Proofs.Session.Shaping
import RuleCheck.Proofs.Category.Present
import RuleCheck.Proofs.Session.Parts
import RuleCheck.Proofs.Object.Store
import RuleCheck.Proofs.Object.Walk
import RuleCheck.Proofs.Object.Held
import RuleCheck.Proofs.Object.Congruent
import RuleCheck.Proofs.Object.Parts
import RuleCheck.Proofs.Object.Visits
import RuleCheck.Proofs.Object.Layout
import RuleCheck.Proofs.Session.Objects
import RuleCheck.Proofs.Visit.Entailing
import RuleCheck.Proofs.Walk.Entailing
import RuleCheck.Proofs.Session.Tokens
import RuleCheck.Proofs.Value.Hollow
import RuleCheck.Proofs.Walk.Required
import RuleCheck.Proofs.Session.Required
import RuleCheck.Proofs.Value.Paths
import RuleCheck.Proofs.Walk.Positions
import RuleCheck.Proofs.Walk.Failures
import RuleCheck.Proofs.Session.Locations
import RuleCheck.Proofs.Session.Metadata
import RuleCheck.Proofs.Session.Twins
import RuleCheck.Proofs.Session.Transcripts
import RuleCheck.Proofs.Schema.RecordKinds
import RuleCheck.Proofs.Visit.Shallow
import RuleCheck.Proofs.Walk.Dispatches
import RuleCheck.Proofs.Value.Rank
import RuleCheck.Proofs.Category.Layers
import RuleCheck.Proofs.Walk.Grounded
import RuleCheck.Proofs.Session.Termination
import RuleCheck.Proofs.Walk.HookRuns
import RuleCheck.Proofs.Walk.HookRecords
import RuleCheck.Proofs.Walk.HookOrder
import RuleCheck.Proofs.Session.HookOrder
import RuleCheck.Proofs.Visit.Missing
import RuleCheck.Proofs.Walk.Coming
import RuleCheck.Proofs.Session.Places
import RuleCheck.Proofs.Category.Kinds
import RuleCheck.Proofs.Session.Kinds
import RuleCheck.Proofs.Session.Missing
import RuleCheck.Proofs.Walk.Spots
import RuleCheck.Proofs.Walk.SpotVisits
import RuleCheck.Proofs.Walk.Selected
import RuleCheck.Proofs.Session.Registries
import RuleCheck.Proofs.Category.Optional
import RuleCheck.Proofs.Walk.Boxes
import RuleCheck.Proofs.Session.Boxes
import RuleCheck.Proofs.Category.Wrapped
import RuleCheck.Proofs.Session.Wrapping
import RuleCheck.Proofs.Schema.FieldLayers
import RuleCheck.Proofs.Visit.Inert
import RuleCheck.Proofs.Category.Reworded
import RuleCheck.Proofs.Walk.Reworded
import RuleCheck.Proofs.Session.Inert
import RuleCheck.Proofs.Value.Outside
import RuleCheck.Proofs.Walk.Arrivals
import RuleCheck.Proofs.Walk.Blind
import RuleCheck.Proofs.Session.Excluded
import RuleCheck.Proofs.Text.Digits
import RuleCheck.Proofs.Number.Decimal28
import RuleCheck.Proofs.Time.Duration
import RuleCheck.Proofs.Literal.Duration
import RuleCheck.Proofs.Literal.DurationText
import RuleCheck.Proofs.Literal.Moment
import RuleCheck.Proofs.Schema.OtherFields
import RuleCheck.Proofs.Rules.Splitting
import RuleCheck.Proofs.Rules.Texts
import RuleCheck.Proofs.Literal.Spellings
import RuleCheck.Proofs.Literal.LongSpellings
import RuleCheck.Proofs.Literal.Layouts
import RuleCheck.Proofs.Visit.Ordered
import RuleCheck.Proofs.Session.Ordered
import RuleCheck.Proofs.Failure.Expressions
import RuleCheck.Proofs.Walk.Revisits
import RuleCheck.Proofs.Walk.Redirects
import RuleCheck.Proofs.Object.Handles
import RuleCheck.Proofs.Object.Writing
import RuleCheck.Proofs.Object.HandleRuns
