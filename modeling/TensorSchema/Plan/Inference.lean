import TensorSchema.Inference.Basic
import TensorSchema.Plan.Order

namespace TensorSchema

structure InferredPlan where
  schemas : List (Option Schema) := []
deriving DecidableEq

namespace InferredPlan

def get? (r : InferredPlan) (id : NodeId) : Option Schema := r.schemas[id.index]?.join

def size (r : InferredPlan) : Nat := (r.schemas.filterMap id).length

def toList (r : InferredPlan) : List (NodeId × Schema) :=
  r.schemas.zipIdx.filterMap fun (s, i) => s.map fun s => (.ofNat i, s)

def set (r : InferredPlan) (id : NodeId) (schema : Schema) : InferredPlan :=
  ⟨r.schemas.set id.index (some schema)⟩

end InferredPlan

namespace Plan

def unknown (p : Plan) : InferredPlan := ⟨List.replicate p.count none⟩

def retained (p : Plan) (previous : InferredPlan) (stale : List NodeId) : InferredPlan :=
  ⟨p.ids.map fun id => if id ∈ stale then none else previous.get? id⟩

def resolve (known : InferredPlan) (node : NodeId) (parameter : PlanParameter) :
    Except PlanError Parameter :=
  match parameter.value with
  | .text s => .ok ⟨parameter.name, .text s⟩
  | .number x => .ok ⟨parameter.name, .number x⟩
  | .input input =>
    match known.get? input with
    | some schema => .ok ⟨parameter.name, .schema schema⟩
    | none => .error (.unresolvedInput node input)

def operation (known : InferredPlan) (node : NodeId) (kind : OperatorKind) (operator : String)
    (parameters : List PlanParameter) : Except PlanError Operation := do
  let parameters ← parameters.mapM (resolve known node)
  return .applied kind operator parameters

def inferNode (engine : Engine) (known : InferredPlan) (id : NodeId) (name : String) :
    Node → Traced PlanError Schema
  | .source schema => return schema
  | .operator kind operator parameters => do
    let op ← .ofExcept (operation known id kind operator parameters)
    let inferred ← (op.infer engine).mapError (.inference id name)
    let schema := inferred.rename name
    .report (.nodeChecked name operator schema.signature)
    return schema

def inferAlong (engine : Engine) (p : Plan) (known : InferredPlan) :
    List NodeId → Traced PlanError InferredPlan
  | [] => return known
  | id :: rest =>
    match known.get? id, p.node? id with
    | none, some node => do
      let schema ← inferNode engine known id ((p.name? id).getD "") node
      inferAlong engine p (known.set id schema) rest
    | _, _ => inferAlong engine p known rest

def inferFrom (engine : Engine) (p : Plan) (known : InferredPlan) : Traced PlanError InferredPlan := do
  let order ← .ofExcept p.sort
  inferAlong engine p known order

def infer (engine : Engine) (p : Plan) : Traced PlanError InferredPlan := p.inferFrom engine p.unknown

def inferAgain (engine : Engine) (p : Plan) (previous : InferredPlan) (stale : List NodeId) :
    Traced PlanError InferredPlan :=
  p.inferFrom engine (p.retained previous stale)

end Plan

end TensorSchema
