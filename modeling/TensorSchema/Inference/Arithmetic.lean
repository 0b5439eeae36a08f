import TensorSchema.Config
import TensorSchema.Conformance
import TensorSchema.Operation.Arguments

namespace TensorSchema.Inference

def doubleValued : List String :=
  ["/", "pow", "sqrt", "exp", "log", "log10", "sin", "cos", "tan", "asin", "acos", "atan", "atan2",
    "sinh", "cosh", "tanh"]

def widening : List String := ["+", "-", "*", "%", "min", "max", "abs", "ceil", "floor", "round"]

def promote (left right : DataType) (operator : String) : Except Fault DataType :=
  match left.rank, right.rank with
  | some l, some r =>
    if operator ∈ doubleValued then .ok .double
    else if operator ∈ widening then .ok (if r ≤ l then left else right)
    else .error (.unknownArithmetic operator)
  | _, _ => .error (.notNumeric operator left right)

def operandType (input : Schema) : Operand → Except SchemaError DataType
  | .literal x => .ok (.natural x)
  | .element name =>
    match input.element? name with
    | some e => .ok e.type
    | none => .error (.unresolved name .element)

def computedType (input : Schema) (operator : String) (left right : Operand) :
    Except SchemaError DataType := do
  let l ← operandType input left
  let r ← operandType input right
  (promote l r operator).mapError .invalid

/-- A result without a name is stored as a double, whatever is computed. -/
def resultAttribute (conventions : Conventions) (computed : DataType) : Option String → Attribute
  | some name => ⟨name, computed⟩
  | none => ⟨conventions.arithmeticResult, .double⟩

def arithmetic (conventions : Conventions) (input : Schema) (operator : String)
    (left right : Operand) (newMember : Option String) : Traced SchemaError Schema := do
  let computed ← .ofExcept (computedType input operator left right)
  .reportAll (if newMember.isNone then [.resultWidened computed] else [])
  let result := (input.copy .structural).push (.attr (resultAttribute conventions computed newMember))
  Conformance.carry input result.1

end TensorSchema.Inference
