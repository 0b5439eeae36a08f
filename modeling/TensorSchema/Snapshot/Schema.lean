import TensorSchema.Json.Fields
import TensorSchema.Json.Number
import TensorSchema.Json.Reader
import TensorSchema.Json.Writer
import TensorSchema.Schema

namespace TensorSchema

open Json

namespace DataType

def tag : DataType → String
  | int => "Integer"
  | long => "Long"
  | float => "Float"
  | double => "Double"
  | boolean => "Boolean"
  | string => "String"

def ofTag? : String → Option DataType
  | "Integer" => some int
  | "Long" => some long
  | "Float" => some float
  | "Double" => some double
  | "Boolean" => some boolean
  | "String" => some string
  | _ => none

def toJson (t : DataType) : Json := .text t.tag

def ofJson? (v : Json) : Option DataType := v.tag?.bind ofTag?

end DataType

namespace Sampling

def tag : Sampling → String
  | explicit => "Explicit"
  | implicit => "Implicit"

def ofTag? : String → Option Sampling
  | "Explicit" => some explicit
  | "Implicit" => some implicit
  | _ => none

def toJson (s : Sampling) : Json := .text s.tag

def ofJson? (v : Json) : Option Sampling := v.tag?.bind ofTag?

end Sampling

namespace Dimension

def fieldNames : List String :=
  ["name", "data_type", "lower_bound", "upper_bound", "spacing", "dimension_type",
    "real_lower_bound", "real_upper_bound"]

def toJson (d : Dimension) : Json :=
  .record (fieldNames.zip [.text d.name, d.type.toJson, .ofFloat d.lower, .ofFloat d.upper,
    .ofFloat d.spacing, d.sampling.toJson, .ofInt d.firstIndex.toInt, .ofInt d.lastIndex.toInt])

def ofJson? (v : Json) : Option Dimension :=
  match v.fields? fieldNames with
  | some [some name, some type, some lower, some upper, some spacing, some sampling, some first,
      some last] => do
    let name ← name.string?
    let type ← DataType.ofJson? type
    let lower ← lower.float?
    let upper ← upper.float?
    let spacing ← spacing.float?
    let sampling ← Sampling.ofJson? sampling
    let first ← first.int64?
    let last ← last.int64?
    return ⟨name, type, lower, upper, spacing, sampling, first, last⟩
  | _ => none

end Dimension

namespace Attribute

def fieldNames : List String := ["name", "data_type"]

def toJson (a : Attribute) : Json := .record (fieldNames.zip [.text a.name, a.type.toJson])

def ofJson? (v : Json) : Option Attribute :=
  match v.fields? fieldNames with
  | some [some name, some type] => do
    let name ← name.string?
    let type ← DataType.ofJson? type
    return ⟨name, type⟩
  | _ => none

end Attribute

namespace Element

def toJson : Element → Json
  | dim d => .variant "Dimension" d.toJson
  | attr a => .variant "Attribute" a.toJson

def ofJson? (v : Json) : Option Element :=
  match v.variant? with
  | some ("Dimension", payload) => (Dimension.ofJson? payload).map dim
  | some ("Attribute", payload) => (Attribute.ofJson? payload).map attr
  | _ => none

end Element

namespace Role

def fieldNames : List String := ["name", "is_mandatory"]

def toJson (r : Role) : Json := .record (fieldNames.zip [.text r.name, .bool r.mandatory])

def ofJson? (v : Json) : Option Role :=
  match v.fields? fieldNames with
  | some [some name, some mandatory] => do
    let name ← name.string?
    let mandatory ← mandatory.bool?
    return ⟨name, mandatory⟩
  | _ => none

end Role

namespace NominalType

def fieldNames : List String := ["name", "roles"]

def toJson (t : NominalType) : Json :=
  .record (fieldNames.zip [.text t.name, .ofMap Role.toJson t.roles])

def ofJson? (v : Json) : Option NominalType :=
  match v.fields? fieldNames with
  | some [some name, some roles] => do
    let name ← name.string?
    let roles ← roles.map? Role.ofJson?
    return ⟨name, roles⟩
  | _ => none

end NominalType

namespace Schema

def fieldNames : List String := ["name", "elements", "nominal_type", "roles"]

def nominalToJson : Option NominalType → Json
  | some t => t.toJson
  | none => .null

def nominalOfJson? : Option Json → Option (Option NominalType)
  | none => some none
  | some .null => some none
  | some v => (NominalType.ofJson? v).map some

def toJson (s : Schema) : Json :=
  .record (fieldNames.zip [.text s.name, .array (s.elements.map Element.toJson),
    nominalToJson s.nominal, .ofMap .text s.roles])

def ofJson? (v : Json) : Option Schema :=
  match v.fields? fieldNames with
  | some [some name, some elements, nominal, some roles] => do
    let name ← name.string?
    let elements ← elements.list? Element.ofJson?
    let nominal ← nominalOfJson? nominal
    let roles ← roles.map? Json.string?
    return ⟨name, elements, nominal, roles⟩
  | _ => none

def save (s : Schema) : String := s.toJson.render

def load? (text : String) : Option Schema := (Json.parse? text).bind ofJson?

end Schema

end TensorSchema
