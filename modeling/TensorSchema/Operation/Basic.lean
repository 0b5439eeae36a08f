import TensorSchema.Operation.Kind
import TensorSchema.Schema

namespace TensorSchema

inductive Value where
  | text (s : String)
  | number (x : Float)
  | schema (s : Schema)
deriving DecidableEq

namespace Value

def kind : Value → ValueKind
  | text _ => .text
  | number _ => .number
  | schema _ => .schema

def text? : Value → Option String
  | text s => some s
  | _ => none

def number? : Value → Option Float
  | number x => some x
  | _ => none

def schema? : Value → Option Schema
  | schema s => some s
  | _ => none

end Value

structure Parameter where
  name : String
  value : Value
deriving DecidableEq

structure Operation where
  kind : OperatorKind
  name : String
  parameters : List Parameter
deriving DecidableEq

namespace Operation

def ofKind (kind : OperatorKind) (parameters : List Parameter) : Operation :=
  ⟨kind, kind.tag, parameters⟩

def userDefined (name : String) (parameters : List Parameter) : Operation :=
  ⟨.userDefined, name, parameters⟩

/-- An application of an operator; the name counts only for user-defined ones. -/
def applied (kind : OperatorKind) (name : String) (parameters : List Parameter) : Operation :=
  match kind with
  | .userDefined => userDefined name parameters
  | kind => ofKind kind parameters

def parameter? (op : Operation) (name : String) : Option Parameter :=
  op.parameters.find? fun p => p.name = name

end Operation

end TensorSchema
