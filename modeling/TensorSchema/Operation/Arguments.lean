import TensorSchema.Operation.Basic

/-! The parameters of an operation read as the arguments of its operator. Parameters are found by their
conventional names; lists of them are numbered from zero and end at the first missing number. -/

namespace TensorSchema

structure Bound where
  dimension : String
  lower : Float
  upper : Float
deriving DecidableEq

inductive Operand where
  | literal (x : Float)
  | element (name : String)
deriving DecidableEq

structure AggregateCall where
  function : Option String
  source : Option String
  output : String
deriving DecidableEq

inductive Arguments where
  | scan (input : Schema)
  | select (input : Schema) (kept : List String)
  | filter (input : Schema)
  | subset (input : Schema) (bounds : List Bound)
  | logical (input : Schema)
  | comparison (input : Schema)
  | arithmetic (input : Schema) (operator : String) (left right : Operand) (newMember : Option String)
  | cross (left right : Schema)
  | dimensionJoin (left right : Schema) (pairs : List (String × String))
  | aggregate (input : Schema) (groupBy : List String) (calls : List AggregateCall)
  | split (input : Schema)
  | userDefined (operator : String)
deriving DecidableEq

def Arguments.kind : Arguments → OperatorKind
  | scan .. => .scan
  | select .. => .select
  | filter .. => .filter
  | subset .. => .subset
  | logical .. => .logical
  | comparison .. => .comparison
  | arithmetic .. => .arithmetic
  | cross .. => .cross
  | dimensionJoin .. => .dimensionJoin
  | aggregate .. => .aggregate
  | split .. => .split
  | userDefined .. => .userDefined

namespace ParameterName

def input : String := "inputTar"
def operator : String := "op"
def newMember : String := "newMember"
def operand (i : Nat) : String := "operand" ++ toString i
def dimension (i : Nat) : String := "dim" ++ toString i
def lower (i : Nat) : String := "lb" ++ toString i
def upper (i : Nat) : String := "ub" ++ toString i

end ParameterName

def readItems {ε α : Type} (read : Nat → Except ε (Option α)) : Nat → Nat → Except ε (List α)
  | 0, _ => .ok []
  | fuel + 1, i => do
    match ← read i with
    | none => return []
    | some a => return a :: (← readItems read fuel (i + 1))

namespace Operation

variable (op : Operation)

def missing (parameter : String) : SchemaError := .missingParameter op.kind parameter

def mismatch (p : Parameter) (wanted : Wanted) : SchemaError :=
  .wrongKind op.kind p.name wanted p.value.kind

def required (name : String) : Except SchemaError Parameter :=
  match op.parameter? name with
  | some p => .ok p
  | none => .error (op.missing name)

def schemaOf (p : Parameter) : Except SchemaError Schema :=
  match p.value.schema? with
  | some s => .ok s
  | none => .error (op.mismatch p (.value .schema))

def textOf (p : Parameter) : Except SchemaError String :=
  match p.value.text? with
  | some s => .ok s
  | none => .error (op.mismatch p (.value .text))

def numberOf (p : Parameter) : Except SchemaError Float :=
  match p.value.number? with
  | some x => .ok x
  | none => .error (op.mismatch p (.value .number))

def operandOf (p : Parameter) : Except SchemaError Operand :=
  match p.value with
  | .number x => .ok (.literal x)
  | .text s => .ok (.element s)
  | .schema _ => .error (op.mismatch p .operand)

def optional {α : Type} (read : Parameter → Except SchemaError α) (name : String) :
    Except SchemaError (Option α) :=
  match op.parameter? name with
  | some p => (read p).map some
  | none => .ok none

def optionalText (name : String) : Except SchemaError (Option String) := op.optional op.textOf name

def requiredText (name : String) : Except SchemaError String := op.required name >>= op.textOf

def requiredNumber (name : String) : Except SchemaError Float := op.required name >>= op.numberOf

def requiredSchema (name : String) : Except SchemaError Schema := op.required name >>= op.schemaOf

/-- Numbered items; distinct numbers need distinct parameters, so the list of them is a bound. -/
def items {α : Type} (read : Nat → Except SchemaError (Option α)) : Except SchemaError (List α) :=
  readItems read op.parameters.length 0

/-- The named input, or the first parameter if that is a schema. -/
def inputSchema : Except SchemaError Schema :=
  match op.parameter? ParameterName.input with
  | some p => op.schemaOf p
  | none =>
    match op.parameters.head?.bind fun p => p.value.schema? with
    | some s => .ok s
    | none => .error (op.missing ParameterName.input)

def texts : List String := op.parameters.filterMap fun p => p.value.text?

def item {α : Type} (name : String) (read : String → Except SchemaError α) :
    Except SchemaError (Option α) := do
  match ← op.optionalText name with
  | none => return none
  | some text => return some (← read text)

def bound? (i : Nat) : Except SchemaError (Option Bound) :=
  op.item (ParameterName.dimension i) fun dimension => do
    let lower ← op.requiredNumber (ParameterName.lower i)
    let upper ← op.requiredNumber (ParameterName.upper i)
    return ⟨dimension, lower, upper⟩

def pair? (k : Nat) : Except SchemaError (Option (String × String)) :=
  op.item (ParameterName.dimension (2 * k)) fun left => do
    let right ← op.requiredText (ParameterName.dimension (2 * k + 1))
    return (left, right)

def call? (k : Nat) : Except SchemaError (Option AggregateCall) :=
  op.item (ParameterName.operand (3 * k + 2)) fun output => do
    let function ← op.optionalText (ParameterName.operand (3 * k))
    let source ← op.optionalText (ParameterName.operand (3 * k + 1))
    return ⟨function, source, output⟩

def subsetArguments : Except SchemaError Arguments := do
  let input ← op.inputSchema
  let bounds ← op.items op.bound?
  return .subset input bounds

def arithmeticArguments : Except SchemaError Arguments := do
  let left ← op.required (ParameterName.operand 0) >>= op.operandOf
  let right ← op.optional op.operandOf (ParameterName.operand 1)
  let input ← op.inputSchema
  let operator ← op.requiredText ParameterName.operator
  let newMember ← op.optionalText ParameterName.newMember
  return .arithmetic input operator left (right.getD (.literal 0)) newMember

def crossArguments : Except SchemaError Arguments :=
  match op.parameters with
  | first :: second :: rest => do
    let left ← op.schemaOf first
    let right ← op.schemaOf ((second :: rest).getLast (by simp))
    return .cross left right
  | few => .error (op.missing (ParameterName.operand few.length))

def dimensionJoinArguments : Except SchemaError Arguments := do
  let left ← op.requiredSchema (ParameterName.operand 0)
  let right ← op.requiredSchema (ParameterName.operand 1)
  let pairs ← op.items op.pair?
  return .dimensionJoin left right pairs

def aggregateArguments : Except SchemaError Arguments := do
  let input ← op.inputSchema
  let groupBy ← op.items fun i => op.optionalText (ParameterName.dimension i)
  let calls ← op.items op.call?
  return .aggregate input groupBy calls

def arguments : Except SchemaError Arguments :=
  match op.kind with
  | .scan => op.inputSchema.map .scan
  | .filter => op.inputSchema.map .filter
  | .split => op.inputSchema.map .split
  | .logical => op.inputSchema.map .logical
  | .comparison => op.inputSchema.map .comparison
  | .select => op.inputSchema.map fun input => .select input op.texts
  | .subset => op.subsetArguments
  | .arithmetic => op.arithmeticArguments
  | .cross => op.crossArguments
  | .dimensionJoin => op.dimensionJoinArguments
  | .aggregate => op.aggregateArguments
  | .userDefined => .ok (.userDefined op.name)

end Operation

end TensorSchema
