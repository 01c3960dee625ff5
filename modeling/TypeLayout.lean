import TypeLayout.Alignment
import TypeLayout.Cli.Arguments
import TypeLayout.Cli.Command
import TypeLayout.Config.Basic
import TypeLayout.Config.Format
import TypeLayout.Descriptor
import TypeLayout.Fundamental
import TypeLayout.Fundamental.Specifier
import TypeLayout.Json.Decimal
import TypeLayout.Json.Fault
import TypeLayout.Json.Printer
import TypeLayout.Json.Reader
import TypeLayout.Json.Shape
import TypeLayout.Json.Skip
import TypeLayout.Json.Value
import TypeLayout.Layout.BasePolicy
import TypeLayout.Layout.BitUnit
import TypeLayout.Layout.Cache
import TypeLayout.Layout.Draft
import TypeLayout.Layout.Engine
import TypeLayout.Layout.Env
import TypeLayout.Layout.Event
import TypeLayout.Layout.Hierarchy
import TypeLayout.Layout.Host
import TypeLayout.Layout.Overlay
import TypeLayout.Layout.Result
import TypeLayout.LayoutError
import TypeLayout.Log
import TypeLayout.Machine
import TypeLayout.OffsetFormat
import TypeLayout.Profile
import TypeLayout.Profile.Builder
import TypeLayout.Query.Expression
import TypeLayout.Query.Report
import TypeLayout.Query.Session
import TypeLayout.Query.Token
import TypeLayout.Registry.Basic
import TypeLayout.Registry.Declare
import TypeLayout.Registry.Entry
import TypeLayout.Registry.Lookup
import TypeLayout.Registry.Path
import TypeLayout.Registry.Prelude
import TypeLayout.Report.Export
import TypeLayout.Report.Listing
import TypeLayout.Source.Declaration
import TypeLayout.Source.Decode
import TypeLayout.Source.Encode
import TypeLayout.Source.Resolution
import TypeLayout.Text.Blank
import TypeLayout.Text.CharRanges
import TypeLayout.Text.Lowercase
import TypeLayout.Text.Pad
import TypeLayout.Text.Quoted
import TypeLayout.Text.Style
import TypeLayout.Text.Unprintable
import TypeLayout.Text.WordChar
import TypeLayout.Main
import TypeLayout.Proofs.Stateful
import TypeLayout.Proofs.Text.Words
import TypeLayout.Proofs.Json.Grammar
import TypeLayout.Proofs.Json.Scalars
import TypeLayout.Proofs.Json.Reading
import TypeLayout.Proofs.Json.Values
import TypeLayout.Proofs.Json.Fields
import TypeLayout.Proofs.Json.Printing
import TypeLayout.Proofs.Registry.Allocation
import TypeLayout.Proofs.Registry.Mentions
import TypeLayout.Proofs.Registry.WellFormed
import TypeLayout.Proofs.Registry.Finding
import TypeLayout.Proofs.Registry.Typedefs
import TypeLayout.Proofs.Registry.Growth
import TypeLayout.Proofs.Registry.Filling
import TypeLayout.Proofs.Registry.Linked
import TypeLayout.Proofs.Registry.Renaming
import TypeLayout.Proofs.Registry.Routes
import TypeLayout.Proofs.Registry.Naming
import TypeLayout.Proofs.Registry.Catalogue
import TypeLayout.Proofs.Registry.Qualified
import TypeLayout.Proofs.Registry.Binders
import TypeLayout.Proofs.Layout.Region
import TypeLayout.Proofs.Layout.Containment
import TypeLayout.Proofs.Layout.Carrier
import TypeLayout.Proofs.Layout.Plain
import TypeLayout.Proofs.Layout.Descent
import TypeLayout.Proofs.Layout.Termination
import TypeLayout.Proofs.Layout.Stability
import TypeLayout.Proofs.Layout.Tiling
import TypeLayout.Proofs.Layout.ByteMap
import TypeLayout.Proofs.Layout.Rounding
import TypeLayout.Proofs.Layout.Placement
import TypeLayout.Proofs.Layout.Aligned
import TypeLayout.Proofs.Layout.Rule
import TypeLayout.Proofs.Layout.Assembly
import TypeLayout.Proofs.Layout.Conformance
import TypeLayout.Proofs.Layout.Failure
import TypeLayout.Proofs.Layout.Cycle
import TypeLayout.Proofs.Layout.Equivariance
import TypeLayout.Proofs.Layout.Regular
import TypeLayout.Proofs.Layout.Exact
import TypeLayout.Proofs.Layout.Progress
import TypeLayout.Proofs.Layout.Refinement
import TypeLayout.Proofs.Layout.Seating
import TypeLayout.Proofs.Layout.Inheritance
import TypeLayout.Proofs.Layout.Seats
import TypeLayout.Proofs.Layout.Slots
import TypeLayout.Proofs.Registry.Mutation
import TypeLayout.Proofs.Layout.Hosts
import TypeLayout.Proofs.Layout.Tasks
import TypeLayout.Proofs.Layout.Coherence
import TypeLayout.Proofs.Layout.Stack
import TypeLayout.Proofs.Layout.Transparency
import TypeLayout.Proofs.Source.Ensures
import TypeLayout.Proofs.Source.Passes
import TypeLayout.Proofs.Source.Steps
import TypeLayout.Proofs.Source.Built
import TypeLayout.Proofs.Source.Sites
import TypeLayout.Proofs.Source.Reading
import TypeLayout.Proofs.Source.Deferred
import TypeLayout.Proofs.Source.Visits
import TypeLayout.Proofs.Source.Remembers
import TypeLayout.Proofs.Source.Fulfils
import TypeLayout.Proofs.Source.Census
import TypeLayout.Proofs.Source.Twins
import TypeLayout.Proofs.Source.Order
import TypeLayout.Proofs.Source.Settled
import TypeLayout.Proofs.Source.Resolved
import TypeLayout.Proofs.Source.Lockstep
import TypeLayout.Proofs.Source.Rivals
import TypeLayout.Proofs.Source.Occurrences
import TypeLayout.Proofs.Source.Retained
import TypeLayout.Proofs.Source.Announced
import TypeLayout.Proofs.Source.Reported
import TypeLayout.Proofs.Source.Enclosed
import TypeLayout.Proofs.Source.SelfContainment
import TypeLayout.Proofs.Source.Format
import TypeLayout.Proofs.Source.Places
import TypeLayout.Proofs.Source.Tagged
import TypeLayout.Proofs.Source.UnitText
import TypeLayout.Proofs.Source.RoundTrip
import TypeLayout.Proofs.Source.Edits
import TypeLayout.Proofs.Source.UnitEdits
import TypeLayout.Proofs.Query.History
import TypeLayout.Proofs.Query.Schedules
import TypeLayout.Proofs.Query.Spelled
import TypeLayout.Proofs.Layout.Packing
import TypeLayout.Proofs.Layout.BitFields
import TypeLayout.Proofs.Layout.Comparison
import TypeLayout.Proofs.Layout.Below
import TypeLayout.Proofs.Layout.Policies
import TypeLayout.Proofs.Layout.Mirror
import TypeLayout.Proofs.Layout.Unfolding
import TypeLayout.Proofs.Layout.Veil
import TypeLayout.Proofs.Layout.Unveiling
import TypeLayout.Proofs.Layout.Arrays
import TypeLayout.Proofs.Layout.Culprit
import TypeLayout.Proofs.Layout.Reached
import TypeLayout.Proofs.Layout.Mistyped
import TypeLayout.Proofs.Layout.BitCount
import TypeLayout.Proofs.Query.Dump
import TypeLayout.Proofs.Query.Identifiers
import TypeLayout.Proofs.Query.Lexing
import TypeLayout.Proofs.Query.ExpressionText
import TypeLayout.Proofs.Query.Lexemes
import TypeLayout.Proofs.Source.TagNames
import TypeLayout.Proofs.Layout.Extent
import TypeLayout.Proofs.Query.Rows
import TypeLayout.Proofs.Layout.Prefix
import TypeLayout.Proofs.Layout.InitialSequence
import TypeLayout.Proofs.Profile.Specifiers
import TypeLayout.Proofs.Profile.Building
import TypeLayout.Proofs.Profile.Overriding
import TypeLayout.Proofs.Layout.Replay
import TypeLayout.Proofs.Layout.Audit
import TypeLayout.Proofs.Query.Counters
import TypeLayout.Proofs.Layout.Masking
import TypeLayout.Proofs.Registry.Pending
import TypeLayout.Proofs.Source.Outside
import TypeLayout.Proofs.Source.Stack
import TypeLayout.Proofs.Source.Completion
