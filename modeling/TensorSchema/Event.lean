import TensorSchema.Error

namespace TensorSchema

inductive Level where
  | trace
  | debug
  | warn
deriving DecidableEq, Repr

inductive Event where
  | mandatoryLost (role element : String)
  | optionalDropped (role element : String)
  | explicitKept (dimension : String)
  | boundsSnapped (dimension : String) (lower upper : Float)
  | resultWidened (computed : DataType)
  | dimensionsIntersected (left right : String) (length : Int64)
  | leftTypeDropped (left : String)
  | noStaticRule (operator : String) (registered : Bool)
  | inferred (operator : OperatorKind) (elements : Nat) (typed : Bool)
  | nodeChecked (node operator signature : String)
deriving DecidableEq

namespace Event

def level : Event → Level
  | mandatoryLost .. => .trace
  | optionalDropped .. => .trace
  | explicitKept .. => .trace
  | boundsSnapped .. => .trace
  | resultWidened .. => .trace
  | dimensionsIntersected .. => .trace
  | leftTypeDropped .. => .warn
  | noStaticRule .. => .warn
  | inferred .. => .debug
  | nodeChecked .. => .debug

def message : Event → String
  | mandatoryLost .. => "mandatory role lost, type dropped"
  | optionalDropped .. => "optional role dropped"
  | explicitKept .. => "explicit dimension left untouched by subset"
  | boundsSnapped .. => "subset bounds snapped"
  | resultWidened .. => "unnamed arithmetic result stored as double"
  | dimensionsIntersected .. => "dimensions intersected"
  | leftTypeDropped .. => "left operand type not carried into join result"
  | noStaticRule .. => "no static schema rule for user-defined operator"
  | inferred .. => "inferred schema"
  | nodeChecked .. => "checked plan node"

inductive Field where
  | text (s : String)
  | flag (b : Bool)
  | count (n : Int)
  | number (x : Float)
deriving DecidableEq

def fields : Event → List (String × Field)
  | mandatoryLost role element => [("role", .text role), ("element", .text element)]
  | optionalDropped role element => [("role", .text role), ("element", .text element)]
  | explicitKept dimension => [("dimension", .text dimension)]
  | boundsSnapped dimension lower upper =>
    [("dimension", .text dimension), ("lower", .number lower), ("upper", .number upper)]
  | resultWidened computed => [("computed", .text computed.name)]
  | dimensionsIntersected left right length =>
    [("left", .text left), ("right", .text right), ("length", .count length.toInt)]
  | leftTypeDropped left => [("left", .text left)]
  | noStaticRule operator registered => [("operator", .text operator), ("registered", .flag registered)]
  | inferred operator elements typed =>
    [("operator", .text operator.tag), ("elements", .count elements), ("typed", .flag typed)]
  | nodeChecked node operator signature =>
    [("node", .text node), ("operator", .text operator), ("schema", .text signature)]

end Event

end TensorSchema
