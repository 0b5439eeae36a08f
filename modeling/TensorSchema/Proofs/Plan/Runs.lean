import Mathlib
import TensorSchema.Plan.Downstream
import TensorSchema.Proofs.Plan.Nodes

namespace TensorSchema.Plan

inductive Call where
  | addSource (name : String) (schema : Schema)
  | addOperator (name : String) (kind : OperatorKind) (parameters : List PlanParameter)
  | addUserDefined (name operator : String) (parameters : List PlanParameter)
  | replaceSource (id : NodeId) (schema : Schema)
deriving DecidableEq

inductive Answer where
  | added (id : NodeId)
  | stale (nodes : List NodeId)
  | refused (error : PlanError)
deriving DecidableEq

def Answer.staleNodes : Answer → List NodeId
  | stale nodes => nodes
  | _ => []

def answered {α : Type} (answer : α → Answer) : Plan × Except PlanError α → Plan × Answer
  | (q, .ok a) => (q, answer a)
  | (q, .error e) => (q, .refused e)

def perform (p : Plan) : Call → Plan × Answer
  | .addSource name schema => (p.addSource name schema).map id .added
  | .addOperator name kind parameters => answered .added (p.addOperator name kind parameters)
  | .addUserDefined name operator parameters =>
    answered .added (p.addUserDefined name operator parameters)
  | .replaceSource id schema => answered .stale (p.replaceSource id schema)

def run (p : Plan) : List Call → Plan × List Answer
  | [] => (p, [])
  | call :: calls =>
    let next := p.perform call
    let rest := next.1.run calls
    (rest.1, next.2 :: rest.2)

def built (calls : List Call) : Plan := (run {} calls).1

inductive Step (p : Plan) : Plan → Answer → Prop
  | refused (error : PlanError) : Step p p (.refused error)
  | added (node : Node) (name : String) : (∀ m ∈ node.inputs, p.contains m = true) →
      Step p (p.addNode node name).1 (.added (.ofNat p.count))
  | replaced (id : NodeId) (old new : Schema) : p.node? id = some (.source old) →
      Step p (p.withSource id new) (.stale ((p.withSource id new).downstream [id]))

lemma addChecked_step (p : Plan) (node : Node) (name : String) :
    Step p (answered .added (p.addChecked node name)).1
      (answered .added (p.addChecked node name)).2 := by
  unfold addChecked
  split
  next input h => exact .refused _
  next h =>
    refine .added node name ?_
    intro m hm
    simpa using List.find?_eq_none.mp h m hm

lemma perform_step (p : Plan) (call : Call) : Step p (p.perform call).1 (p.perform call).2 := by
  cases call with
  | addSource name schema => exact .added (.source schema) name (by simp [Node.inputs])
  | addOperator name kind parameters => exact addChecked_step p _ name
  | addUserDefined name operator parameters => exact addChecked_step p _ name
  | replaceSource id schema =>
    simp only [perform, replaceSource]
    split
    next old h => exact .replaced id old schema h
    next => exact .refused _

lemma Step.unchanged {p q : Plan} {error : PlanError} (h : Step p q (.refused error)) : q = p := by
  cases h
  rfl

lemma run_preserves {motive : Plan → Prop}
    (hstep : ∀ {p q : Plan} {answer : Answer}, Step p q answer → motive p → motive q)
    {p : Plan} (hp : motive p) (calls : List Call) : motive (p.run calls).1 := by
  induction calls generalizing p with
  | nil => exact hp
  | cons call calls ih => exact ih (hstep (perform_step p call) hp)

@[simp] lemma count_withSource (p : Plan) (id : NodeId) (schema : Schema) :
    (p.withSource id schema).count = p.count := by
  simp [withSource, count]

lemma node?_withSource_ne {p : Plan} {id other : NodeId} (schema : Schema) (h : other ≠ id) :
    (p.withSource id schema).node? other = p.node? other := by
  have hi : id.index ≠ other.index := fun he => h (NodeId.index_injective he.symm)
  simp [withSource, node?, List.getElem?_set_ne hi]

lemma node?_withSource_self {p : Plan} {id : NodeId} {old : Schema} (schema : Schema)
    (h : p.node? id = some (.source old)) :
    (p.withSource id schema).node? id = some (.source schema) :=
  List.getElem?_set_self (contains_iff.mp (contains_of_node h))

lemma inputs_withSource {p : Plan} {id : NodeId} {old : Schema} (schema : Schema)
    (h : p.node? id = some (.source old)) (other : NodeId) :
    (p.withSource id schema).inputs other = p.inputs other := by
  by_cases ho : other = id
  · subst ho
    simp [inputs, h, node?_withSource_self schema h, Node.inputs]
  · simp [inputs, node?_withSource_ne schema ho]

end TensorSchema.Plan
