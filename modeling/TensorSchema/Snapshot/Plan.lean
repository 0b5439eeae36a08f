import TensorSchema.Plan.Basic
import TensorSchema.Snapshot.Schema

/-! Plans saved as JSON text and loaded from it. The names in use are not part of a snapshot. -/

namespace TensorSchema

open Json

namespace OperatorKind

def snapshotTag : OperatorKind → String
  | scan => "Scan"
  | select => "Select"
  | filter => "Filter"
  | subset => "Subset"
  | logical => "Logical"
  | comparison => "Comparison"
  | arithmetic => "Arithmetic"
  | cross => "Cross"
  | dimensionJoin => "DimJoin"
  | aggregate => "Aggregate"
  | split => "Split"
  | userDefined => "UserDefined"

def ofSnapshotTag? (s : String) : Option OperatorKind := all.find? fun k => k.snapshotTag = s

def toJson (k : OperatorKind) : Json := .text k.snapshotTag

def ofJson? (v : Json) : Option OperatorKind := v.tag?.bind ofSnapshotTag?

end OperatorKind

namespace NodeId

def toJson (id : NodeId) : Json := .ofInt id.index

def ofJson? (v : Json) : Option NodeId := v.uint32?.map NodeId.mk

end NodeId

namespace PlanValue

def toJson : PlanValue → Json
  | input node => .variant "Input" node.toJson
  | text s => .variant "LiteralString" (.text s)
  | number x => .variant "LiteralDouble" (.ofFloat x)

def ofJson? (v : Json) : Option PlanValue :=
  match v.variant? with
  | some ("Input", payload) => (NodeId.ofJson? payload).map input
  | some ("LiteralString", payload) => payload.string?.map text
  | some ("LiteralDouble", payload) => payload.float?.map number
  | _ => none

end PlanValue

namespace PlanParameter

def fieldNames : List String := ["name", "value"]

def toJson (p : PlanParameter) : Json := .record (fieldNames.zip [.text p.name, p.value.toJson])

def ofJson? (v : Json) : Option PlanParameter :=
  match v.fields? fieldNames with
  | some [some name, some value] => do
    let name ← name.string?
    let value ← PlanValue.ofJson? value
    return ⟨name, value⟩
  | _ => none

end PlanParameter

namespace Node

def operatorFieldNames : List String := ["kind", "operator", "params"]

def toJson : Node → Json
  | source schema => .variant "Source" schema.toJson
  | operator kind name parameters =>
    .variant "Operator" (.record (operatorFieldNames.zip [kind.toJson, .text name,
      .array (parameters.map PlanParameter.toJson)]))

def operatorOfJson? (v : Json) : Option Node :=
  match v.fields? operatorFieldNames with
  | some [some kind, some name, some parameters] => do
    let kind ← OperatorKind.ofJson? kind
    let name ← name.string?
    let parameters ← parameters.list? PlanParameter.ofJson?
    return operator kind name parameters
  | _ => none

def ofJson? (v : Json) : Option Node :=
  match v.variant? with
  | some ("Source", payload) => (Schema.ofJson? payload).map source
  | some ("Operator", payload) => operatorOfJson? payload
  | _ => none

end Node

namespace Span

def toJson (s : Span) : Json := .array [.ofInt s.start.toNat, .ofInt s.count.toNat]

def ofJson? : Json → Option Span
  | .array [start, count] => do
    let start ← start.uint32?
    let count ← count.uint32?
    return ⟨start, count⟩
  | _ => none

end Span

namespace Plan

def fieldNames : List String :=
  ["kinds", "names", "parents_flat", "parents_ranges", "first_child", "child_targets", "next_child"]

def edgeToJson (edge : UInt32) : Json := .ofInt edge.toNat

def toJson (p : Plan) : Json :=
  .record (fieldNames.zip [.array (p.nodes.map Node.toJson), .array (p.names.map .text),
    .array (p.parentColumn.map NodeId.toJson), .array (p.parentSpans.map Span.toJson),
    .array (p.firstEdges.map edgeToJson), .array (p.edgeTargets.map NodeId.toJson),
    .array (p.nextEdges.map edgeToJson)])

def ofJson? (v : Json) : Option Plan :=
  match v.fields? fieldNames with
  | some [some nodes, some names, some parents, some spans, some first, some targets, some next] => do
    let nodes ← nodes.list? Node.ofJson?
    let names ← names.list? Json.string?
    let parents ← parents.list? NodeId.ofJson?
    let spans ← spans.list? Span.ofJson?
    let first ← first.list? Json.uint32?
    let targets ← targets.list? NodeId.ofJson?
    let next ← next.list? Json.uint32?
    return ⟨nodes, names, parents, spans, first, targets, next, []⟩
  | _ => none

def save (p : Plan) : String := p.toJson.render

def loadColumns? (text : String) : Option Plan := (Json.parse? text).bind ofJson?

def load? (text : String) : Option Plan := (loadColumns? text).map restoreNames

end Plan

end TensorSchema
