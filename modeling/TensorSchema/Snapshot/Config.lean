import TensorSchema.Config
import TensorSchema.Json.Fields
import TensorSchema.Json.Reader
import TensorSchema.Json.Writer

/-! Configurations saved as JSON text and loaded from it. What a document leaves out has its default. -/

namespace TensorSchema

open Json

namespace Conventions

def fieldNames : List String :=
  ["synthetic_dimension", "mask_attribute", "offset_attribute", "arithmetic_result", "left_prefix",
    "right_prefix"]

def toJson (c : Conventions) : Json :=
  .record (fieldNames.zip [.text c.syntheticDimension, .text c.maskAttribute, .text c.offsetAttribute,
    .text c.arithmeticResult, .text c.leftPrefix, .text c.rightPrefix])

def ofJson? (v : Json) : Option Conventions :=
  let initial : Conventions := {}
  match v.defaultedFields? fieldNames with
  | some [synthetic, mask, offset, result, left, right] => do
    let synthetic ← fieldOr initial.syntheticDimension Json.string? synthetic
    let mask ← fieldOr initial.maskAttribute Json.string? mask
    let offset ← fieldOr initial.offsetAttribute Json.string? offset
    let result ← fieldOr initial.arithmeticResult Json.string? result
    let left ← fieldOr initial.leftPrefix Json.string? left
    let right ← fieldOr initial.rightPrefix Json.string? right
    return ⟨synthetic, mask, offset, result, left, right⟩
  | _ => none

end Conventions

namespace Config

def fieldNames : List String := ["conventions", "values"]

def toJson (c : Config) : Json :=
  .record (fieldNames.zip [c.conventions.toJson, .ofMap .text c.values])

def ofJson? (v : Json) : Option Config :=
  match v.defaultedFields? fieldNames with
  | some [conventions, values] => do
    let conventions ← fieldOr {} Conventions.ofJson? conventions
    let values ← fieldOr ∅ (map? Json.string?) values
    return ⟨conventions, values⟩
  | _ => none

def save (c : Config) : String := c.toJson.render

def load? (text : String) : Option Config := (Json.parse? text).bind ofJson?

inductive LoadError where
  | unreadable
  | malformed
deriving DecidableEq, Repr

def ofFile (content : Option ByteArray) : Except LoadError Config :=
  match content.bind String.fromUTF8? with
  | none => .error .unreadable
  | some text =>
    match load? text with
    | some c => .ok c
    | none => .error .malformed

end Config

end TensorSchema
