import TensorSchema.Plan.Basic

namespace TensorSchema.Plan

/-- Appends a node to `order`, after its parents. `path` holds the consumers that led to the node; a
node that is met on it lies on a cycle. -/
def visit (p : Plan) : Nat → List NodeId → List NodeId → NodeId → Except PlanError (List NodeId)
  | 0, _, order, _ => .ok order
  | fuel + 1, path, order, node =>
    if node ∈ order then .ok order
    else if node ∈ path then .error (.cycle ((p.name? node).getD ""))
    else do
      let order ← (p.parents node).foldlM (p.visit fuel (node :: path)) order
      return order ++ [node]

/-- Parents before consumers; nodes that do not depend on each other keep their order. A path without
repetition is no longer than the plan. -/
def sort (p : Plan) : Except PlanError (List NodeId) :=
  p.ids.foldlM (p.visit (p.count + 1) []) []

end TensorSchema.Plan
