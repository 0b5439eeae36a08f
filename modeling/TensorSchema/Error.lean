import TensorSchema.DataType
import TensorSchema.Double.Text
import TensorSchema.Operation.Kind

/-! Why a schema cannot be inferred. Causes are data; their wording is in the `message` functions. -/

namespace TensorSchema

inductive Fault where
  | notMaterialized (left right : String)
  | badSpacing (dimension : String) (spacing : Float)
  | noCommonGrid (left : String) (leftSpacing : Float) (right : String) (rightSpacing : Float)
  | disjoint (left right : String)
  | longIntersection (left right : String)
  | manyCells (schema : String)
  | infiniteSubset (dimension : String) (lower upper : Float)
  | emptySubset (dimension : String) (lower upper spacing : Float)
  | longSubset (dimension : String) (lower upper : Float)
  | notNumeric (operator : String) (left right : DataType)
  | unknownArithmetic (operator : String)
  | reported (reason : String)
deriving DecidableEq

def intervalText (lower upper : Float) : String :=
  "[" ++ Double.message lower ++ ", " ++ Double.message upper ++ "]"

def Fault.message : Fault → String
  | notMaterialized l r => s!"cannot intersect '{l}' and '{r}' without materialized values"
  | badSpacing d s => s!"dimension '{d}' has spacing {Double.message s}"
  | noCommonGrid l a r b =>
    s!"spacings {Double.message a} of '{l}' and {Double.message b} of '{r}' have no common grid"
  | disjoint l r => s!"dimensions '{l}' and '{r}' do not overlap"
  | longIntersection l r =>
    s!"intersection of '{l}' and '{r}' has more points than a 64-bit length holds"
  | manyCells s => s!"cell count of '{s}' overflows a 64-bit length"
  | infiniteSubset d l u => s!"non-finite subset bounds {intervalText l u} on '{d}'"
  | emptySubset d l u s =>
    s!"subset {intervalText l u} on '{d}' is empty once snapped to spacing {Double.message s}"
  | longSubset d l u =>
    s!"subset {intervalText l u} on '{d}' has more points than a 64-bit length holds"
  | notNumeric op l r => s!"operator '{op}' is not defined for {l.name} and {r.name}"
  | unknownArithmetic op => s!"unknown arithmetic operator '{op}'"
  | reported reason => reason

inductive ValueKind where
  | text
  | number
  | schema
deriving DecidableEq, Repr

def ValueKind.name : ValueKind → String
  | text => "string literal"
  | number => "numeric literal"
  | schema => "TAR reference"

inductive Wanted where
  | value (kind : ValueKind)
  | operand
deriving DecidableEq, Repr

def Wanted.name : Wanted → String
  | value kind => kind.name
  | operand => "numeric literal or element name"

inductive Referent where
  | dimension
  | element
deriving DecidableEq, Repr

def Referent.name : Referent → String
  | dimension => "a dimension"
  | element => "an element"

inductive SchemaError where
  | missingParameter (operator : OperatorKind) (parameter : String)
  | wrongKind (operator : OperatorKind) (parameter : String) (wanted : Wanted) (found : ValueKind)
  | unresolved (name : String) (referent : Referent)
  | unsupported (operator : String)
  | invalid (fault : Fault)
  | invalidBinding (role element : String)
deriving DecidableEq

def SchemaError.message : SchemaError → String
  | missingParameter op p => s!"{op.tag} requires parameter '{p}'"
  | wrongKind op p wanted found =>
    s!"parameter '{p}' of {op.tag} must be a {wanted.name}, found a {found.name}"
  | unresolved name referent => s!"'{name}' does not name {referent.name} of the input TAR"
  | unsupported op => s!"schema inference is not supported for operator '{op}'"
  | invalid fault => s!"invalid bound or type: {fault.message}"
  | invalidBinding role element => s!"cannot bind role '{role}' to element '{element}'"

end TensorSchema
