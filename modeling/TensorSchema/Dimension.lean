import TensorSchema.DataType

/-! Dimensions: named axes with bounds and a spacing. A dimension whose values form a regular grid is
implicit; one whose values are listed elsewhere is explicit. -/

namespace TensorSchema

inductive Sampling where
  | explicit
  | implicit
deriving DecidableEq, Repr

structure Dimension where
  name : String
  type : DataType
  lower : Float
  upper : Float
  spacing : Float
  sampling : Sampling
  firstIndex : Int64
  lastIndex : Int64
deriving DecidableEq

namespace Dimension

/-- The number of grid points from `lower` to `upper`, both included, if 64 bits hold it. -/
def lengthBetween (lower upper spacing : Float) : Option Int64 := do
  let steps ← (Double.toInt? ((upper - lower) / spacing)).bind exactInt64
  exactInt64 (steps.toInt + 1)

def length? (d : Dimension) : Option Int64 := lengthBetween d.lower d.upper d.spacing

def length (d : Dimension) : Int64 := d.length?.getD Int64.maxValue

def indexBefore (n : Int64) : Int64 := Int64.ofIntClamp (n.toInt - 1)

def implicit (name : String) (type : DataType) (lower upper spacing : Float) : Dimension where
  name := name
  type := type
  lower := lower
  upper := upper
  spacing := spacing
  sampling := .implicit
  firstIndex := 0
  lastIndex := indexBefore ((lengthBetween lower upper spacing).getD Int64.maxValue)

def explicit (name : String) (type : DataType) (lower upper : Float) : Dimension :=
  { implicit name type lower upper 1 with sampling := .explicit }

def isImplicit (d : Dimension) : Bool := d.sampling = .implicit

def rename (d : Dimension) (name : String) : Dimension := { d with name := name }

def hasStep (d : Dimension) : Bool := d.spacing.isFinite && 0 < d.spacing

end Dimension

end TensorSchema
