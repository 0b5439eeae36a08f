import TensorSchema.Inference.Aggregation
import TensorSchema.Inference.Arithmetic
import TensorSchema.Inference.Join
import TensorSchema.Inference.Projection
import TensorSchema.Inference.Subset

namespace TensorSchema

namespace Inference

def passThrough (input : Schema) : Traced SchemaError Schema :=
  Conformance.carry input (input.copy .structural)

def predicate (conventions : Conventions) (input : Schema) : Schema :=
  (input.copy .structural).pushAll
    [.attr ⟨conventions.maskAttribute, .boolean⟩, .attr ⟨conventions.offsetAttribute, .long⟩]

/-- User-defined operators have no rule, even if a setting registers one. -/
def unknownRule (engine : Engine) (operator : String) : Traced SchemaError Schema := do
  .report (.noStaticRule operator (engine.setting? (Config.operatorKey operator)).isSome)
  .fail (.unsupported operator)

def apply (engine : Engine) : Arguments → Traced SchemaError Schema
  | .scan input => passThrough input
  | .filter input => passThrough input
  | .split input => passThrough input
  | .select input kept => select engine.conventions input kept
  | .subset input bounds => subset input bounds
  | .logical input => return predicate engine.conventions input
  | .comparison input => return predicate engine.conventions input
  | .arithmetic input operator left right newMember =>
    arithmetic engine.conventions input operator left right newMember
  | .cross left right => cross engine.conventions left right
  | .dimensionJoin left right pairs => dimensionJoin engine left right pairs
  | .aggregate input groupBy calls => aggregate engine.conventions input groupBy calls
  | .userDefined operator => unknownRule engine operator

end Inference

def Operation.infer (engine : Engine) (op : Operation) : Traced SchemaError Schema := do
  let arguments ← .ofExcept op.arguments
  let result ← Inference.apply engine arguments
  .report (.inferred arguments.kind result.elements.length result.nominal.isSome)
  return result

end TensorSchema
