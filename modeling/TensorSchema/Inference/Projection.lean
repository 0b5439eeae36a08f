import TensorSchema.Config
import TensorSchema.Conformance

/-! Selection of elements. If all dimensions are kept the result is a projection; otherwise it loses its
shape, and the kept elements become attributes along one dimension that counts the cells. -/

namespace TensorSchema.Inference

def requireElement (input : Schema) (name : String) : Except SchemaError Element :=
  match input.element? name with
  | some e => .ok e
  | none => .error (.unresolved name .element)

def keepsDimensions (input : Schema) (kept : List String) : Bool :=
  input.dimensions.all fun d => kept.contains d.name

def cellDimension (conventions : Conventions) (cells : Int64) : Dimension :=
  .implicit conventions.syntheticDimension .long 1 (Double.ofInt cells.toInt) 1

def selected (conventions : Conventions) (input : Schema) (kept : List String) :
    Except SchemaError (List Element) := do
  let elements ← kept.mapM (requireElement input)
  if keepsDimensions input kept then return elements
  else match input.cellCount with
  | none => .error (.invalid (.manyCells input.name))
  | some cells =>
    return .dim (cellDimension conventions cells) :: elements.map fun e => .attr ⟨e.name, e.type⟩

def select (conventions : Conventions) (input : Schema) (kept : List String) :
    Traced SchemaError Schema := do
  let elements ← .ofExcept (selected conventions input kept)
  Conformance.carry input ((Schema.new "").pushAll elements)

end TensorSchema.Inference
