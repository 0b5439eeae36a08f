import TensorSchema.FreshName
import TensorSchema.Operation.Basic

/-! Query plans: sources and operators wired into a graph. Nodes are numbered in the order in which they are
added, and each column of a plan has one entry per node or per edge. The edges from a node to its consumers
form a linked list, the latest first. -/

namespace TensorSchema

structure NodeId where
  raw : UInt32
deriving DecidableEq, Repr

namespace NodeId

def index (id : NodeId) : Nat := id.raw.toNat

def ofNat (n : Nat) : NodeId := ⟨UInt32.ofNat n⟩

def text (id : NodeId) : String := "NodeId(" ++ toString id.index ++ ")"

end NodeId

inductive PlanValue where
  | input (node : NodeId)
  | text (s : String)
  | number (x : Float)
deriving DecidableEq

def PlanValue.input? : PlanValue → Option NodeId
  | input node => some node
  | _ => none

structure PlanParameter where
  name : String
  value : PlanValue
deriving DecidableEq

inductive Node where
  | source (schema : Schema)
  | operator (kind : OperatorKind) (name : String) (parameters : List PlanParameter)
deriving DecidableEq

def Node.inputs : Node → List NodeId
  | source _ => []
  | operator _ _ parameters => parameters.filterMap fun p => p.value.input?

structure Span where
  start : UInt32
  count : UInt32
deriving DecidableEq, Repr

inductive PlanError where
  | cycle (name : String)
  | unresolvedInput (node input : NodeId)
  | notASource (node : NodeId)
  | inference (node : NodeId) (name : String) (cause : SchemaError)
deriving DecidableEq

def PlanError.message : PlanError → String
  | cycle name => s!"Cycle detected involving node '{name}'"
  | unresolvedInput node input => s!"node {node.text} refers to node {input.text}, which has no schema"
  | notASource node => s!"node {node.text} is not a source"
  | inference _ name cause => s!"inference failed at node '{name}': {cause.message}"

structure Plan where
  nodes : List Node := []
  names : List String := []
  /-- The parents of all nodes, one node after the other. -/
  parentColumn : List NodeId := []
  parentSpans : List Span := []
  firstEdges : List UInt32 := []
  edgeTargets : List NodeId := []
  nextEdges : List UInt32 := []
  usedNames : List String := []
deriving DecidableEq

namespace Plan

def noEdge : UInt32 := 0xffffffff

def count (p : Plan) : Nat := p.nodes.length

def contains (p : Plan) (id : NodeId) : Bool := id.index < p.count

def ids (p : Plan) : List NodeId := (List.range p.count).map NodeId.ofNat

def node? (p : Plan) (id : NodeId) : Option Node := p.nodes[id.index]?

def name? (p : Plan) (id : NodeId) : Option String := p.names[id.index]?

def find? (p : Plan) (name : String) : Option NodeId := (p.names.idxOf? name).map NodeId.ofNat

def parents (p : Plan) (id : NodeId) : List NodeId :=
  match p.parentSpans[id.index]? with
  | some span => (p.parentColumn.drop span.start.toNat).take span.count.toNat
  | none => []

def followEdges (p : Plan) : Nat → UInt32 → List NodeId
  | 0, _ => []
  | fuel + 1, edge =>
    if edge = noEdge then []
    else match p.edgeTargets[edge.toNat]?, p.nextEdges[edge.toNat]? with
    | some target, some next => target :: p.followEdges fuel next
    | _, _ => []

/-- The consumers of a node, the latest first. A list that ends has no edge twice. -/
def children (p : Plan) (id : NodeId) : List NodeId :=
  match p.firstEdges[id.index]? with
  | some edge => p.followEdges p.nextEdges.length edge
  | none => []

def numberedName (name : String) : Nat → String
  | 0 => name
  | k + 1 => name ++ "_" ++ toString (k + 1)

def uniqueName (p : Plan) (name : String) : String := freshName p.usedNames (numberedName name)

def addEdge (target : NodeId) (p : Plan) (parent : NodeId) : Plan :=
  match p.firstEdges[parent.index]? with
  | some head =>
    { p with
      firstEdges := p.firstEdges.set parent.index (UInt32.ofNat p.edgeTargets.length)
      edgeTargets := p.edgeTargets ++ [target]
      nextEdges := p.nextEdges ++ [head] }
  | none => p

def addNode (p : Plan) (node : Node) (name : String) : Plan × NodeId :=
  let id := NodeId.ofNat p.count
  let unique := p.uniqueName name
  let wired := node.inputs.foldl (addEdge id) p
  let span : Span := ⟨UInt32.ofNat p.parentColumn.length, UInt32.ofNat node.inputs.length⟩
  ({ wired with
      nodes := p.nodes ++ [node]
      names := p.names ++ [unique]
      parentColumn := p.parentColumn ++ node.inputs
      parentSpans := p.parentSpans ++ [span]
      firstEdges := wired.firstEdges ++ [noEdge]
      usedNames := p.usedNames ++ [unique] }, id)

def addSource (p : Plan) (name : String) (schema : Schema) : Plan × NodeId :=
  p.addNode (.source schema) name

def addChecked (p : Plan) (node : Node) (name : String) : Plan × Except PlanError NodeId :=
  match node.inputs.find? fun i => !p.contains i with
  | some input => (p, .error (.unresolvedInput (.ofNat p.count) input))
  | none =>
    let added := p.addNode node name
    (added.1, .ok added.2)

def addOperator (p : Plan) (name : String) (kind : OperatorKind) (parameters : List PlanParameter) :
    Plan × Except PlanError NodeId :=
  p.addChecked (.operator kind kind.tag parameters) name

def addUserDefined (p : Plan) (name operator : String) (parameters : List PlanParameter) :
    Plan × Except PlanError NodeId :=
  p.addChecked (.operator .userDefined operator parameters) name

def restoreNames (p : Plan) : Plan := { p with usedNames := p.names }

end Plan

end TensorSchema
