import TensorSchema.NameMap

namespace TensorSchema

structure Conventions where
  syntheticDimension : String := "i"
  maskAttribute : String := "mask"
  offsetAttribute : String := "offset"
  arithmeticResult : String := "op_result"
  leftPrefix : String := "left_"
  rightPrefix : String := "right_"
deriving DecidableEq, Repr

structure Config where
  conventions : Conventions := {}
  values : NameMap String := ∅
deriving DecidableEq

namespace Config

def get? (c : Config) (key : String) : Option String := c.values.find? key

def set (c : Config) (key value : String) : Config := { c with values := c.values.insert key value }

def operatorKey (operator : String) : String := "operator." ++ operator ++ ".schema_infer"

end Config

end TensorSchema
