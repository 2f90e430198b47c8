import CellScript.Code.Compile
import CellScript.Code.Fold
import CellScript.Code.Op
import CellScript.Code.Refresh
import CellScript.Code.Specialize
import CellScript.Code.Static
import CellScript.Decimal.Basic
import CellScript.Decimal.Identity
import CellScript.Decimal.Text
import CellScript.Diagnostic
import CellScript.Double.Parts
import CellScript.Double.Reader
import CellScript.Double.Text
import CellScript.ErrorCode
import CellScript.Eval.Basic
import CellScript.Eval.Binary
import CellScript.Eval.Demand
import CellScript.Eval.Function
import CellScript.Eval.Lemmas
import CellScript.Eval.Op
import CellScript.Exception
import CellScript.Instant
import CellScript.Json
import CellScript.Library
import CellScript.Listing.Basic
import CellScript.Listing.Scope
import CellScript.Listing.Session
import CellScript.Listing.Syntax
import CellScript.Listing.Value
import CellScript.Memory.Basic
import CellScript.Memory.Lemmas
import CellScript.Memory.Pool
import CellScript.Proofs.Code.Address
import CellScript.Proofs.Code.Below
import CellScript.Proofs.Code.CallFree
import CellScript.Proofs.Code.Compiled
import CellScript.Proofs.Code.Compiles
import CellScript.Proofs.Code.Constants
import CellScript.Proofs.Code.Expressions
import CellScript.Proofs.Code.Foldable
import CellScript.Proofs.Code.Folded
import CellScript.Proofs.Code.Functions
import CellScript.Proofs.Code.Heeds
import CellScript.Proofs.Code.Ok
import CellScript.Proofs.Code.Specialized
import CellScript.Proofs.Code.Templates
import CellScript.Proofs.Decimal.Number
import CellScript.Proofs.Decimal.Quotient
import CellScript.Proofs.Double.Bits
import CellScript.Proofs.Double.Nearest
import CellScript.Proofs.Double.Rounding
import CellScript.Proofs.Double.Shortest
import CellScript.Proofs.Eval.Arguments
import CellScript.Proofs.Eval.Arrangements
import CellScript.Proofs.Eval.Asking
import CellScript.Proofs.Eval.Audit
import CellScript.Proofs.Eval.Binding
import CellScript.Proofs.Eval.Block
import CellScript.Proofs.Eval.CallFree
import CellScript.Proofs.Eval.Careful
import CellScript.Proofs.Eval.Comprehension
import CellScript.Proofs.Eval.Curried
import CellScript.Proofs.Eval.Demand
import CellScript.Proofs.Eval.Discipline
import CellScript.Proofs.Eval.Grows
import CellScript.Proofs.Eval.Halts
import CellScript.Proofs.Eval.Knots
import CellScript.Proofs.Eval.Lines
import CellScript.Proofs.Eval.Op
import CellScript.Proofs.Eval.Pairs
import CellScript.Proofs.Eval.Patterns
import CellScript.Proofs.Eval.Reference
import CellScript.Proofs.Eval.Respects
import CellScript.Proofs.Eval.Safe
import CellScript.Proofs.Eval.Sealed
import CellScript.Proofs.Eval.Serves
import CellScript.Proofs.Library
import CellScript.Proofs.Linking.Asks
import CellScript.Proofs.Linking.Complete
import CellScript.Proofs.Linking.Cycles
import CellScript.Proofs.Linking.Encapsulation
import CellScript.Proofs.Linking.Frame
import CellScript.Proofs.Linking.Indexed
import CellScript.Proofs.Linking.Link
import CellScript.Proofs.Linking.Program
import CellScript.Proofs.Linking.Renumbered
import CellScript.Proofs.Linking.Resolved
import CellScript.Proofs.Linking.Resolves
import CellScript.Proofs.Memory.Budget
import CellScript.Proofs.Memory.Good
import CellScript.Proofs.Memory.Grows
import CellScript.Proofs.Memory.Mirrors
import CellScript.Proofs.Memory.Provided
import CellScript.Proofs.Memory.Sealed
import CellScript.Proofs.Modes.Ahead
import CellScript.Proofs.Modes.Becomes
import CellScript.Proofs.Modes.Compilation
import CellScript.Proofs.Modes.Demands
import CellScript.Proofs.Modes.Links
import CellScript.Proofs.Modes.Operations
import CellScript.Proofs.Modes.References
import CellScript.Proofs.Modes.Sessions
import CellScript.Proofs.Modes.Steps
import CellScript.Proofs.Modes.Values
import CellScript.Proofs.Modes.Yields
import CellScript.Proofs.Scope.Abreast
import CellScript.Proofs.Scope.Accepted
import CellScript.Proofs.Scope.Alike
import CellScript.Proofs.Scope.Analyzed
import CellScript.Proofs.Scope.Annotated
import CellScript.Proofs.Scope.Captures
import CellScript.Proofs.Scope.Declared
import CellScript.Proofs.Scope.Entries
import CellScript.Proofs.Scope.Exact
import CellScript.Proofs.Scope.Expressions
import CellScript.Proofs.Scope.Formed
import CellScript.Proofs.Scope.Groups
import CellScript.Proofs.Scope.Growth
import CellScript.Proofs.Scope.Homes
import CellScript.Proofs.Scope.Indexed
import CellScript.Proofs.Scope.Innermost
import CellScript.Proofs.Scope.LoadOrder
import CellScript.Proofs.Scope.Lockstep
import CellScript.Proofs.Scope.Nodes
import CellScript.Proofs.Scope.Ordered
import CellScript.Proofs.Scope.Outlined
import CellScript.Proofs.Scope.Owners
import CellScript.Proofs.Scope.Pass
import CellScript.Proofs.Scope.Reach
import CellScript.Proofs.Scope.Ready
import CellScript.Proofs.Scope.Rebuilt
import CellScript.Proofs.Scope.Recovery
import CellScript.Proofs.Scope.Renumbered
import CellScript.Proofs.Scope.Reordered
import CellScript.Proofs.Scope.Sees
import CellScript.Proofs.Scope.Sound
import CellScript.Proofs.Scope.Step
import CellScript.Proofs.Scope.Traced
import CellScript.Proofs.Scope.Transport
import CellScript.Proofs.Scope.Units
import CellScript.Proofs.Scope.Visited
import CellScript.Proofs.Scope.Visits
import CellScript.Proofs.Scope.Walks
import CellScript.Proofs.Session.Buffers
import CellScript.Proofs.Session.Coherence
import CellScript.Proofs.Session.Comprehensions
import CellScript.Proofs.Session.Definitions
import CellScript.Proofs.Session.Discipline
import CellScript.Proofs.Session.Knots
import CellScript.Proofs.Session.Lasting
import CellScript.Proofs.Session.Layout
import CellScript.Proofs.Session.Matching
import CellScript.Proofs.Session.Mirrors
import CellScript.Proofs.Session.Requests
import CellScript.Proofs.Session.Safety
import CellScript.Proofs.Session.Shown
import CellScript.Proofs.Session.Termination
import CellScript.Proofs.Syntax.Distinct
import CellScript.Proofs.Syntax.Occurs
import CellScript.Proofs.Syntax.Uses
import CellScript.Proofs.Text.Lines
import CellScript.Proofs.Value.Alike
import CellScript.Proofs.Value.Containers
import CellScript.Proofs.Value.Conversions
import CellScript.Proofs.Value.Equality
import CellScript.Proofs.Value.Kinds
import CellScript.Proofs.Value.LongDivision
import CellScript.Proofs.Value.Numbers
import CellScript.Proofs.Value.Promotion
import CellScript.Scope.Analysis
import CellScript.Scope.Analyze
import CellScript.Scope.Arena
import CellScript.Scope.Arena.Lemmas
import CellScript.Scope.Basic
import CellScript.Scope.Build
import CellScript.Scope.Closure
import CellScript.Scope.Inspect
import CellScript.Scope.Link
import CellScript.Scope.Lookup
import CellScript.Scope.Resolve
import CellScript.Session.Basic
import CellScript.Session.Layout
import CellScript.SourceMap
import CellScript.Span
import CellScript.Syntax.Basic
import CellScript.Syntax.Document
import CellScript.Syntax.Unit
import CellScript.Table
import CellScript.Text.Lines
import CellScript.Text.Quoted
import CellScript.Text.Unprintable
import CellScript.Ty
import CellScript.Value.Arithmetic
import CellScript.Value.Basic
import CellScript.Value.Cast
import CellScript.Value.Entries
import CellScript.Value.Equality
import CellScript.Value.Literal
import CellScript.Value.Text
