import TensorSchema.Conformance
import TensorSchema.Operation.Arguments

namespace TensorSchema.Inference

def remainder (v spacing : Float) : Float := v - Double.trunc (v / spacing) * spacing

/-- The lower end moves up by its remainder and the upper end down by its own, so that `[12, 38]`
becomes `[14, 35]` on a spacing of five. -/
def snap (b : Bound) (spacing : Float) : Float × Float :=
  (b.lower + remainder b.lower spacing, b.upper - remainder b.upper spacing)

def narrowGrid (d : Dimension) (b : Bound) : Except Fault Dimension :=
  if !b.lower.isFinite || !b.upper.isFinite then .error (.infiniteSubset d.name b.lower b.upper)
  else if !d.hasStep then .error (.badSpacing d.name d.spacing)
  else
    let (lower, upper) := snap b d.spacing
    if upper < lower then .error (.emptySubset d.name b.lower b.upper d.spacing)
    else match Dimension.lengthBetween lower upper d.spacing with
    | none => .error (.longSubset d.name b.lower b.upper)
    | some length =>
      .ok { d with
        lower := lower
        upper := upper
        firstIndex := 0
        lastIndex := Dimension.indexBefore length }

def narrowDimension (d : Dimension) (b : Bound) : Traced SchemaError Dimension :=
  if !d.isImplicit then do
    .report (.explicitKept d.name)
    return d
  else match narrowGrid d b with
  | .error fault => .fail (.invalid fault)
  | .ok narrowed => do
    .report (.boundsSnapped d.name narrowed.lower narrowed.upper)
    return narrowed

def narrow (b : Bound) : List Element → Traced SchemaError (List Element)
  | [] => .fail (.unresolved b.dimension .dimension)
  | .dim d :: rest =>
    if d.name = b.dimension then do
      let narrowed ← narrowDimension d b
      return .dim narrowed :: rest
    else do
      let others ← narrow b rest
      return .dim d :: others
  | .attr a :: rest => do
    let others ← narrow b rest
    return .attr a :: others

def narrowAll : List Bound → List Element → Traced SchemaError (List Element)
  | [], elements => return elements
  | b :: rest, elements => do
    let narrowed ← narrow b elements
    narrowAll rest narrowed

def subset (input : Schema) (bounds : List Bound) : Traced SchemaError Schema := do
  let base := input.copy .structural
  let elements ← narrowAll bounds base.elements
  Conformance.carry input { base with elements := elements }

end TensorSchema.Inference
