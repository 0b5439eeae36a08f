import TensorSchema.Plan.Basic

namespace TensorSchema.Plan

/-- The members of `remaining` that are reachable from `pending`. Every step takes a node out of
`remaining`. -/
def gather (next : NodeId → List NodeId) (remaining pending : List NodeId) : List NodeId :=
  match _found : pending.find? remaining.contains with
  | none => []
  | some node => node :: gather next (remaining.erase node) (pending ++ next node)
termination_by remaining.length
decreasing_by
  have hmem : node ∈ remaining := by simpa using List.find?_some _found
  rw [List.length_erase_of_mem hmem]
  exact Nat.sub_lt (List.length_pos_of_mem hmem) Nat.one_pos

def downstream (p : Plan) (start : List NodeId) : List NodeId :=
  let reached := gather p.children p.ids start
  p.ids.filter reached.contains

def withSource (p : Plan) (id : NodeId) (schema : Schema) : Plan :=
  { p with nodes := p.nodes.set id.index (.source schema) }

def replaceSource (p : Plan) (id : NodeId) (schema : Schema) : Plan × Except PlanError (List NodeId) :=
  match p.node? id with
  | some (.source _) => (p.withSource id schema, .ok ((p.withSource id schema).downstream [id]))
  | _ => (p, .error (.notASource id))

end TensorSchema.Plan
