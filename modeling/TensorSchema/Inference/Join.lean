import TensorSchema.Engine
import TensorSchema.Schema
import TensorSchema.Traced

namespace TensorSchema.Inference

def prefixed (mark : String) (e : Element) : Element := e.rename (mark ++ e.name)

def dimensionsFirst (s : Schema) : List Element :=
  s.dimensions.map .dim ++ s.attributes.map .attr

def leftTypeReport (left : Schema) : List Event :=
  if left.nominal.isSome then [.leftTypeDropped left.name] else []

def crossElements (conventions : Conventions) (left right : Schema) : List Element :=
  (dimensionsFirst right).map (prefixed conventions.rightPrefix) ++ dimensionsFirst left

def cross (conventions : Conventions) (left right : Schema) : Traced SchemaError Schema := do
  .reportAll (leftTypeReport left)
  return (Schema.new "").pushAll (crossElements conventions left right)

def requireDimension (s : Schema) (name : String) : Except SchemaError Dimension :=
  match s.dimension? name with
  | some d => .ok d
  | none => .error (.unresolved name .dimension)

def checkPairs (left right : Schema) : List (String × String) → Except SchemaError Unit
  | [] => .ok ()
  | (l, r) :: rest => do
    let _ ← requireDimension left l
    let _ ← requireDimension right r
    checkPairs left right rest

/-- The right dimension joined with a left one; the last pair that names it counts. -/
def partner? (pairs : List (String × String)) (l : String) : Option String :=
  (pairs.reverse.find? fun p => p.1 = l).map Prod.snd

def joinDimension (engine : Engine) (right : Schema) (pairs : List (String × String)) (d : Dimension) :
    Traced SchemaError Dimension :=
  match partner? pairs d.name with
  | none => return d
  | some r => do
    let other ← .ofExcept (requireDimension right r)
    let joined ← .ofExcept (engine.intersect d other)
    .report (.dimensionsIntersected d.name r joined.length)
    return joined

def joinDimensions (engine : Engine) (right : Schema) (pairs : List (String × String)) :
    List Dimension → Traced SchemaError (List Element)
  | [] => return []
  | d :: rest => do
    let joined ← joinDimension engine right pairs d
    let others ← joinDimensions engine right pairs rest
    return .dim (joined.rename (engine.conventions.leftPrefix ++ d.name)) :: others

def unpaired (right : Schema) (pairs : List (String × String)) : List Dimension :=
  right.dimensions.filter fun d => !(pairs.any fun p => p.2 = d.name)

def dimensionJoin (engine : Engine) (left right : Schema) (pairs : List (String × String)) :
    Traced SchemaError Schema := do
  let _ ← .ofExcept (checkPairs left right pairs)
  let joined ← joinDimensions engine right pairs left.dimensions
  let fromRight := (unpaired right pairs).map Element.dim ++ right.attributes.map .attr
  .reportAll (leftTypeReport left)
  return (Schema.new "").pushAll (joined ++ fromRight.map (prefixed engine.conventions.rightPrefix)
    ++ (left.attributes.map Element.attr).map (prefixed engine.conventions.leftPrefix))

end TensorSchema.Inference
