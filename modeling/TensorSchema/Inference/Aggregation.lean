import TensorSchema.Config
import TensorSchema.Conformance
import TensorSchema.Inference.Join
import TensorSchema.Operation.Arguments

namespace TensorSchema.Inference

def pointDimension (conventions : Conventions) : Dimension :=
  .implicit conventions.syntheticDimension .int 0 0 1

def groups (conventions : Conventions) (input : Schema) (groupBy : List String) :
    Except SchemaError (List Dimension) := do
  let dimensions ← groupBy.mapM (requireDimension input)
  return if groupBy.isEmpty then [pointDimension conventions] else dimensions

def aggregate (conventions : Conventions) (input : Schema) (groupBy : List String)
    (calls : List AggregateCall) : Traced SchemaError Schema := do
  let dimensions ← .ofExcept (groups conventions input groupBy)
  let outputs := calls.map fun c => Element.attr ⟨c.output, .double⟩
  Conformance.carry input ((Schema.new "").pushAll (dimensions.map .dim ++ outputs))

end TensorSchema.Inference
