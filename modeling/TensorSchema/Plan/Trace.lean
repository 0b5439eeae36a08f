import TensorSchema.Plan.Inference

/-! The tree of nodes that a node depends on, one line per node with its operator and its schema. A node
that is met again is only referred to by the level at which it stands. -/

namespace TensorSchema.Plan

inductive Branch where
  | middle
  | last
deriving DecidableEq, Repr

def Branch.connector : Branch → String
  | middle => "|--"
  | last => "`--"

def branched {α : Type} : List α → List (Branch × α)
  | [] => []
  | [a] => [(.last, a)]
  | a :: rest => (.middle, a) :: branched rest

def shownParents (p : Plan) (id : NodeId) : List NodeId :=
  match p.node? id with
  | some (.operator ..) => p.parents id
  | _ => []

def argumentText (p : Plan) (parameter : PlanParameter) : String :=
  parameter.name ++ "=" ++ match parameter.value with
    | .input node => (p.name? node).getD "?"
    | .text s => "'" ++ s ++ "'"
    | .number x => Double.message x

def callText (p : Plan) (operator : String) (parameters : List PlanParameter) : String :=
  operator ++ "(" ++ ", ".intercalate (parameters.map p.argumentText) ++ ")"

def schemaText : Option Schema → String
  | none => "[?]"
  | some s =>
    "[" ++ s.signature ++ (match s.nominal with | some t => " : " ++ t.name | none => "") ++ "]"

def originText (p : Plan) (id : NodeId) : String :=
  match p.node? id with
  | some (.source schema) => " -> Source(" ++ schema.name ++ ")"
  | some (.operator _ operator parameters) => " = " ++ p.callText operator parameters
  | none => ""

def nodeLabel (p : Plan) (known : InferredPlan) (level : Nat) (id : NodeId) : String :=
  "[L" ++ toString level ++ "] " ++ (p.name? id).getD "" ++ " " ++ schemaText (known.get? id)
    ++ p.originText id

def referenceLabel (level : Nat) : String := "-> (Ref to L" ++ toString level ++ ")"

/-- Puts a text in place of every occurrence of another one, from the left on. After an occurrence has
been found, `skip` more characters belong to it. -/
def replaceFrom (old new : List Char) : Nat → List Char → List Char
  | _, [] => []
  | skip + 1, _ :: rest => replaceFrom old new skip rest
  | 0, c :: rest =>
    if old.isPrefixOf (c :: rest) then new ++ replaceFrom old new (old.length - 1) rest
    else c :: replaceFrom old new 0 rest

def replaceAll (old new text : String) : String :=
  .ofList (replaceFrom old.toList new.toList 0 text.toList)

/-- What is drawn below a line, up to the connector: a branch goes on as a rail, the last one does not. -/
def childStem (lead : String) : String := replaceAll "|--" "|  " (replaceAll "`--" "   " lead)

structure Tracer where
  levels : List (NodeId × Nat) := []
  output : String := ""
deriving DecidableEq

def Tracer.writeLine (t : Tracer) (text : String) : Tracer := { t with output := t.output ++ text ++ "\n" }

def traceNode (p : Plan) (known : InferredPlan) : Nat → Tracer → NodeId → Nat → String → Tracer
  | 0, t, _, _, _ => t
  | fuel + 1, t, id, level, lead =>
    match t.levels.lookup id with
    | some first => t.writeLine (lead ++ referenceLabel first)
    | none =>
      let marked := { t with levels := t.levels ++ [(id, level)] }
      (branched (p.shownParents id)).foldl
        (fun t (branch, parent) =>
          p.traceNode known fuel t parent (level + 1) (childStem lead ++ branch.connector))
        (marked.writeLine (lead ++ p.nodeLabel known level id))

def ruler : String := String.ofList (List.replicate 50 '-')

/-- The tree below a node. A branch without repetition is no longer than the plan. -/
def trace (p : Plan) (known : InferredPlan) (target : NodeId) : String :=
  match p.name? target with
  | none => "Error: Invalid Node ID " ++ target.text ++ "\n"
  | some name =>
    let start : Tracer := { output := "SCHEMA TRACE for node '" ++ name ++ "':\n" ++ ruler ++ "\n" }
    (p.traceNode known (p.count + 1) start target 1 "").output

end TensorSchema.Plan
