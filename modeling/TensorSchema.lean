import TensorSchema.Double.Parts
import TensorSchema.Double.Rounding
import TensorSchema.Double.Shortest
import TensorSchema.Double.Text
import TensorSchema.NameMap
import TensorSchema.FreshName
import TensorSchema.DataType
import TensorSchema.Dimension
import TensorSchema.Operation.Kind
import TensorSchema.Error
import TensorSchema.Dimension.Grid
import TensorSchema.NominalType
import TensorSchema.Schema
import TensorSchema.Event
import TensorSchema.Traced
import TensorSchema.Conformance
import TensorSchema.Operation.Basic
import TensorSchema.Operation.Arguments
import TensorSchema.Config
import TensorSchema.Engine
import TensorSchema.Inference.Projection
import TensorSchema.Inference.Subset
import TensorSchema.Inference.Arithmetic
import TensorSchema.Inference.Join
import TensorSchema.Inference.Aggregation
import TensorSchema.Inference.Basic
import TensorSchema.Json.Basic
import TensorSchema.Json.Writer
import TensorSchema.Json.Reader
import TensorSchema.Json.Number
import TensorSchema.Json.Fields
import TensorSchema.Snapshot.Schema
import TensorSchema.Snapshot.Config
import TensorSchema.Plan.Basic
import TensorSchema.Plan.Order
import TensorSchema.Plan.Downstream
import TensorSchema.Plan.Inference
import TensorSchema.Plan.Trace
import TensorSchema.Snapshot.Plan
import TensorSchema.Proofs.FreshName
import TensorSchema.Proofs.Outcome
import TensorSchema.Proofs.NameMap
import TensorSchema.Proofs.Schema.Names
import TensorSchema.Proofs.Schema.Edits
import TensorSchema.Proofs.Conformance
import TensorSchema.Proofs.Operation.Arguments
import TensorSchema.Proofs.Operation.Numbered
import TensorSchema.Proofs.Operation.ParameterOrder
import TensorSchema.Proofs.Inference.Narrowing
import TensorSchema.Proofs.Inference.Layout
import TensorSchema.Proofs.Inference.Results
import TensorSchema.Proofs.Plan.Nodes
import TensorSchema.Proofs.Plan.Runs
import TensorSchema.Proofs.Plan.EdgeLists
import TensorSchema.Proofs.Plan.Consistency
import TensorSchema.Proofs.Plan.Wiring
import TensorSchema.Proofs.Plan.Order
import TensorSchema.Proofs.Plan.NodeRule
import TensorSchema.Proofs.Plan.Typing
import TensorSchema.Proofs.Plan.Derivation
import TensorSchema.Proofs.Plan.Downstream
import TensorSchema.Proofs.Plan.Incremental
import TensorSchema.Proofs.Plan.Invariants
import TensorSchema.Proofs.Inference.Roles
import TensorSchema.Proofs.Inference.Carried
import TensorSchema.Proofs.Inference.IndexRanges
import TensorSchema.Proofs.Plan.Sorting
import TensorSchema.Proofs.Plan.TraceTree
import TensorSchema.Proofs.Json.Strings
import TensorSchema.Proofs.Json.NumberGrammar
import TensorSchema.Proofs.Json.Documents
import TensorSchema.Proofs.Double.Shortest
import TensorSchema.Proofs.Double.Value
import TensorSchema.Proofs.Double.Nearest
import TensorSchema.Proofs.Double.Arithmetic
import TensorSchema.Proofs.Double.Order
import TensorSchema.Proofs.Double.Whole
import TensorSchema.Proofs.Double.Single
import TensorSchema.Proofs.DataType
import TensorSchema.Proofs.Dimension.Points
import TensorSchema.Proofs.Dimension.Intersection
import TensorSchema.Proofs.Dimension.CommonSpacing
import TensorSchema.Proofs.Inference.Snapping
import TensorSchema.Proofs.Inference.JoinedDimensions
import TensorSchema.Proofs.Json.Numbers
import TensorSchema.Proofs.Json.Fields
import TensorSchema.Proofs.Snapshot.Schema
import TensorSchema.Proofs.Snapshot.Plan
import TensorSchema.Proofs.Snapshot.Config
import TensorSchema.Proofs.Schema.Cells
import TensorSchema.Proofs.Schema.Copies
import TensorSchema.Proofs.Naming
import TensorSchema.Proofs.Inference.Selection
import TensorSchema.Proofs.Inference.Subsets
import TensorSchema.Proofs.Inference.Preserved
import TensorSchema.Proofs.Inference.Products
import TensorSchema.Proofs.Inference.Projections
