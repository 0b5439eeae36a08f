import TensorSchema.Config
import TensorSchema.Dimension.Grid

namespace TensorSchema

structure Engine where
  conventions : Conventions
  setting? : String → Option String
  intersect : Dimension → Dimension → Except SchemaError Dimension

def Config.engine (c : Config) : Engine where
  conventions := c.conventions
  setting? := c.get?
  intersect left right := (left.intersect right).mapError .invalid

instance : Coe Config Engine := ⟨Config.engine⟩

end TensorSchema
