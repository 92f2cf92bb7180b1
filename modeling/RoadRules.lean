import RoadRules.Budget
import RoadRules.Calendar.Date
import RoadRules.Calendar.Duration
import RoadRules.Calendar.Moment
import RoadRules.Calendar.Moment.Reader
import RoadRules.Calendar.Month
import RoadRules.Calendar.NamedCycle
import RoadRules.Calendar.Range
import RoadRules.Calendar.TimeOfDay
import RoadRules.Calendar.Weekday
import RoadRules.Condition.Bound
import RoadRules.Condition.Item
import RoadRules.Condition.Reader
import RoadRules.Condition.Refusal
import RoadRules.Condition.Token
import RoadRules.Fallible
import RoadRules.Fault
import RoadRules.Ident
import RoadRules.Json
import RoadRules.Json.Field
import RoadRules.Json.Reader
import RoadRules.Json.Scalar
import RoadRules.Json.Writer
import RoadRules.Network.Basic
import RoadRules.Network.Draft
import RoadRules.Network.Edge
import RoadRules.Network.Geometry
import RoadRules.Network.InStep
import RoadRules.Network.Multigraph
import RoadRules.Network.Snapshot
import RoadRules.Number.Binary64
import RoadRules.Number.Layout
import RoadRules.Number.Numeral
import RoadRules.Number.Power
import RoadRules.Number.Quantity
import RoadRules.Number.Rounding
import RoadRules.Number.Setting
import RoadRules.OrderedMap
import RoadRules.Policy
import RoadRules.Problem
import RoadRules.Proofs.Number.Lawful
import RoadRules.Proofs.OrderedMap
import RoadRules.Proofs.Number.Rational
import RoadRules.Proofs.Travel.Cost
import RoadRules.Proofs.Travel.Order
import RoadRules.Proofs.Travel.Path
import RoadRules.Proofs.Travel.Run
import RoadRules.Proofs.Travel.Trail
import RoadRules.Restriction.Basic
import RoadRules.Restriction.Comparison
import RoadRules.Restriction.Document
import RoadRules.Review.Finding
import RoadRules.Review.Suggestion
import RoadRules.Router
import RoadRules.Session
import RoadRules.Survey.Index
import RoadRules.Survey.Summary
import RoadRules.Text.Basic
import RoadRules.Text.Blank
import RoadRules.Text.CharClass
import RoadRules.Text.Digit
import RoadRules.Text.Lowercase
import RoadRules.Text.Printable
import RoadRules.Text.Quoted
import RoadRules.Text.Replace
import RoadRules.Text.WordChar
import RoadRules.Travel.Cost
import RoadRules.Travel.Route
import RoadRules.Travel.Search
import RoadRules.Vehicle.Choice
import RoadRules.Vehicle.Profile
import RoadRules.Way.Basic
import RoadRules.Way.Direction
import RoadRules.Way.Document
import RoadRules.Way.Speed
import RoadRules.Way.TagMapper
import RoadRules.Window.Basic
import RoadRules.Window.Document
import RoadRules.Window.Named
import RoadRules.Window.Overlap
import RoadRules.Window.Search
import RoadRules.Proofs.Travel.Cheapest
import RoadRules.Proofs.Travel.Sound
import RoadRules.Proofs.Calendar.Cycle
import RoadRules.Proofs.Condition.Tokens
import RoadRules.Proofs.Condition.Grammar
import RoadRules.Proofs.Condition.Items
import RoadRules.Proofs.Condition.Schedule
import RoadRules.Proofs.Text.Letters
import RoadRules.Proofs.Condition.Bounds
import RoadRules.Proofs.Condition.Complete
import RoadRules.Proofs.Condition.Comparisons
import RoadRules.Proofs.Condition.Marks
import RoadRules.Proofs.Condition.Documented
import RoadRules.Proofs.Condition.Accepted
import RoadRules.Proofs.Condition.Clauses
import RoadRules.Proofs.Condition.Joined
import RoadRules.Proofs.Condition.Value
import RoadRules.Proofs.Condition.Names
import RoadRules.Proofs.Condition.Strays
import RoadRules.Proofs.Survey.Scan
import RoadRules.Proofs.Condition.Slots
import RoadRules.Proofs.Cut
import RoadRules.Proofs.Network.Views
import RoadRules.Proofs.Network.Built
import RoadRules.Proofs.Network.Nearest
import RoadRules.Proofs.Router.Atomic
import RoadRules.Proofs.Router.Known
import RoadRules.Proofs.Network.Oneway
import RoadRules.Proofs.Calendar.Days
import RoadRules.Proofs.Window.Overlap
import RoadRules.Proofs.Window.Search
import RoadRules.Proofs.Condition.WholeMinutes
import RoadRules.Proofs.Review.Overlap
import RoadRules.Proofs.Network.Reference
import RoadRules.Proofs.Network.Restricted
import RoadRules.Proofs.Network.Stated
import RoadRules.Proofs.Number.Monotone
import RoadRules.Proofs.Travel.Harder
import RoadRules.Proofs.Travel.Formula
import RoadRules.Proofs.Travel.Hindered
import RoadRules.Proofs.Travel.Limited
import RoadRules.Proofs.Session
import RoadRules.Proofs.Survey.Account
import RoadRules.Proofs.Travel.Reordered
import RoadRules.Proofs.Travel.Symmetric
import RoadRules.Proofs.Budget
import RoadRules.Proofs.Condition.Refused
import RoadRules.Proofs.Condition.Runs
import RoadRules.Proofs.Condition.Offending
import RoadRules.Proofs.Text.Words
import RoadRules.Proofs.Review.Recase
import RoadRules.Proofs.Condition.Words
import RoadRules.Proofs.Review.Repaired
import RoadRules.Proofs.Window.Arc
import RoadRules.Proofs.Review.Tags
import RoadRules.Proofs.Review.Lookalike
import RoadRules.Proofs.Review.Verdicts
import RoadRules.Proofs.Calendar.Runs
import RoadRules.Proofs.Condition.Described
import RoadRules.Proofs.Window.Stretch
import RoadRules.Proofs.Network.MaxSpeed
import RoadRules.Proofs.Number.Signed
import RoadRules.Proofs.Network.Signs
import RoadRules.Proofs.Number.Undefined
import RoadRules.Proofs.Number.Characters
import RoadRules.Proofs.Text.Removal
import RoadRules.Proofs.Way.Speed
import RoadRules.Proofs.Travel.Unaffected
import RoadRules.Proofs.Travel.Turns
import RoadRules.Proofs.Text.Replaced
import RoadRules.Proofs.Review.Progress
import RoadRules.Proofs.Calendar.Years
import RoadRules.Proofs.Window.Recurs
import RoadRules.Proofs.Calendar.Written
import RoadRules.Proofs.Condition.Lossless
