import ObjectNavigation.Accessor
import ObjectNavigation.Builder.Assemble
import ObjectNavigation.Builder.Basic
import ObjectNavigation.Builder.Finish
import ObjectNavigation.Builder.Flatten
import ObjectNavigation.Context
import ObjectNavigation.Decimal.Nearest
import ObjectNavigation.Decimal.Notation
import ObjectNavigation.Decimal.Shortest
import ObjectNavigation.Engine.Node
import ObjectNavigation.Engine.World
import ObjectNavigation.Failure
import ObjectNavigation.Inspection
import ObjectNavigation.Method.Behaviour
import ObjectNavigation.Method.Registry
import ObjectNavigation.Node.Body
import ObjectNavigation.Node.Kind
import ObjectNavigation.Node.Probe
import ObjectNavigation.Node.Tree
import ObjectNavigation.Permission
import ObjectNavigation.Proofs.Builder.Absorption
import ObjectNavigation.Proofs.Builder.Branch
import ObjectNavigation.Proofs.Builder.Depiction
import ObjectNavigation.Proofs.Builder.Descent
import ObjectNavigation.Proofs.Builder.Effect
import ObjectNavigation.Proofs.Builder.Finish
import ObjectNavigation.Proofs.Builder.Flat
import ObjectNavigation.Proofs.Builder.InPlace
import ObjectNavigation.Proofs.Builder.Links
import ObjectNavigation.Proofs.Builder.Listing
import ObjectNavigation.Proofs.Decimal.Rounding
import ObjectNavigation.Proofs.Decimal.Shortest
import ObjectNavigation.Proofs.Engine.Accessors
import ObjectNavigation.Proofs.Engine.Activation
import ObjectNavigation.Proofs.Engine.Addition
import ObjectNavigation.Proofs.Engine.Answers
import ObjectNavigation.Proofs.Engine.Assignment
import ObjectNavigation.Proofs.Engine.Attempts
import ObjectNavigation.Proofs.Engine.Blame
import ObjectNavigation.Proofs.Engine.Caching
import ObjectNavigation.Proofs.Engine.Cells
import ObjectNavigation.Proofs.Engine.Closure
import ObjectNavigation.Proofs.Engine.Constancy
import ObjectNavigation.Proofs.Engine.Course
import ObjectNavigation.Proofs.Engine.Effect
import ObjectNavigation.Proofs.Engine.Exactness
import ObjectNavigation.Proofs.Engine.First
import ObjectNavigation.Proofs.Engine.Gets
import ObjectNavigation.Proofs.Engine.Kept
import ObjectNavigation.Proofs.Engine.Layers
import ObjectNavigation.Proofs.Engine.Matching
import ObjectNavigation.Proofs.Engine.Mediation
import ObjectNavigation.Proofs.Engine.Mirror
import ObjectNavigation.Proofs.Engine.Navigation
import ObjectNavigation.Proofs.Engine.Parallel
import ObjectNavigation.Proofs.Engine.Purity
import ObjectNavigation.Proofs.Engine.Reassociation
import ObjectNavigation.Proofs.Engine.Records
import ObjectNavigation.Proofs.Engine.Reset
import ObjectNavigation.Proofs.Engine.Seen
import ObjectNavigation.Proofs.Engine.Session
import ObjectNavigation.Proofs.Engine.Settling
import ObjectNavigation.Proofs.Engine.Sparse
import ObjectNavigation.Proofs.Engine.Splicing
import ObjectNavigation.Proofs.Engine.Supplied
import ObjectNavigation.Proofs.Engine.Tracing
import ObjectNavigation.Proofs.Engine.Twins
import ObjectNavigation.Proofs.Engine.Uncached
import ObjectNavigation.Proofs.Engine.Usage
import ObjectNavigation.Proofs.Method.Coverage
import ObjectNavigation.Proofs.Method.Member
import ObjectNavigation.Proofs.Method.Respects
import ObjectNavigation.Proofs.Node.Child
import ObjectNavigation.Proofs.Node.Constant
import ObjectNavigation.Proofs.Node.Inspected
import ObjectNavigation.Proofs.Node.IntTerm
import ObjectNavigation.Proofs.Node.Nest
import ObjectNavigation.Proofs.Node.Order
import ObjectNavigation.Proofs.Node.Spliced
import ObjectNavigation.Proofs.Node.Standard
import ObjectNavigation.Proofs.Outcome
import ObjectNavigation.Proofs.Script.Candid
import ObjectNavigation.Proofs.Script.Confined
import ObjectNavigation.Proofs.Script.Discreet
import ObjectNavigation.Proofs.Script.Sees
import ObjectNavigation.Proofs.Script.Similar
import ObjectNavigation.Proofs.Source.Decimal
import ObjectNavigation.Proofs.Source.Escape
import ObjectNavigation.Proofs.Source.Formed
import ObjectNavigation.Proofs.Source.Lexeme
import ObjectNavigation.Proofs.Source.Lowering
import ObjectNavigation.Proofs.Source.Naming
import ObjectNavigation.Proofs.Source.Normal
import ObjectNavigation.Proofs.Source.Numeral
import ObjectNavigation.Proofs.Source.Parser
import ObjectNavigation.Proofs.Source.Piece
import ObjectNavigation.Proofs.Source.RoundTrip
import ObjectNavigation.Proofs.Source.Spelling.Access
import ObjectNavigation.Proofs.Source.Spelling.Joined
import ObjectNavigation.Proofs.Source.Spelling.Operand
import ObjectNavigation.Proofs.Source.Spelling.Path
import ObjectNavigation.Proofs.Source.Text
import ObjectNavigation.Proofs.Trace.Branch
import ObjectNavigation.Proofs.Trace.Completion
import ObjectNavigation.Proofs.Trace.Discipline
import ObjectNavigation.Proofs.Trace.Lineage
import ObjectNavigation.Proofs.Trace.Pool
import ObjectNavigation.Proofs.Trace.Recycling
import ObjectNavigation.Proofs.Trace.Shape
import ObjectNavigation.Proofs.Trace.Twin
import ObjectNavigation.Proofs.Trace.Use
import ObjectNavigation.Proofs.Value.Addition
import ObjectNavigation.Proofs.Value.Equality
import ObjectNavigation.Proofs.Value.Erase
import ObjectNavigation.Proofs.Value.Exact
import ObjectNavigation.Proofs.Value.Fault
import ObjectNavigation.Proofs.Value.Fold
import ObjectNavigation.Proofs.Value.Handles
import ObjectNavigation.Proofs.Value.Laws
import ObjectNavigation.Proofs.Value.Print
import ObjectNavigation.Proofs.Value.Walk
import ObjectNavigation.Script.Basic
import ObjectNavigation.Script.Surface
import ObjectNavigation.Source.Blank
import ObjectNavigation.Source.Cursor
import ObjectNavigation.Source.Escape
import ObjectNavigation.Source.Expr
import ObjectNavigation.Source.Expression
import ObjectNavigation.Source.Grammar.Access
import ObjectNavigation.Source.Grammar.Atom
import ObjectNavigation.Source.Grammar.Attribute
import ObjectNavigation.Source.Grammar.Basic
import ObjectNavigation.Source.Grammar.Block
import ObjectNavigation.Source.Grammar.Item
import ObjectNavigation.Source.Grammar.Item.Data
import ObjectNavigation.Source.Grammar.Item.Function
import ObjectNavigation.Source.Grammar.Item.Member
import ObjectNavigation.Source.Grammar.Joined
import ObjectNavigation.Source.Grammar.Operand
import ObjectNavigation.Source.Grammar.Parameter
import ObjectNavigation.Source.Grammar.Path
import ObjectNavigation.Source.Grammar.Pattern
import ObjectNavigation.Source.Grammar.Type
import ObjectNavigation.Source.Lexeme
import ObjectNavigation.Source.Literal
import ObjectNavigation.Source.Location
import ObjectNavigation.Source.Lowering
import ObjectNavigation.Source.Number
import ObjectNavigation.Source.Operator
import ObjectNavigation.Source.Token
import ObjectNavigation.Text.CharRanges
import ObjectNavigation.Text.Identifier
import ObjectNavigation.Text.Printable
import ObjectNavigation.Text.Quoted
import ObjectNavigation.Trace.Pool
import ObjectNavigation.Trace.Stack
import ObjectNavigation.Value.Arithmetic
import ObjectNavigation.Value.Basic
import ObjectNavigation.Value.Equality
import ObjectNavigation.Value.Heap
import ObjectNavigation.Value.Picture
import ObjectNavigation.Value.Text
import ObjectNavigation.Workspace
