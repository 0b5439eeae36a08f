import TensorSchema.Json.Basic
import TensorSchema.NameMap

/-! Documents that stand for structured values. A record is an object, in which unknown members are skipped
and known ones occur once, or an array of all fields in order. A variant is an object whose only key is the
tag; a variant without payload may also be the tag alone. A map is an object in which the last of several
equal keys counts. -/

namespace TensorSchema.Json

def string? : Json → Option String
  | string content => content
  | _ => none

def bool? : Json → Option Bool
  | bool b => some b
  | _ => none

def list? {α : Type} (item : Json → Option α) : Json → Option (List α)
  | array items => items.mapM item
  | _ => none

def named? (members : List (Option String × Json)) : Option (List (String × Json)) :=
  members.mapM fun (key, v) => key.map fun k => (k, v)

def member? (members : List (String × Json)) (name : String) : Option (Option Json) :=
  match members.filter fun m => m.1 = name with
  | [] => some none
  | [m] => some (some m.2)
  | _ => none

def fields? (names : List String) : Json → Option (List (Option Json))
  | object members => do
    let members ← named? members
    names.mapM (member? members)
  | array items => if items.length = names.length then some (items.map some) else none
  | _ => none

/-- The fields of a record with defaults, which an array may leave out from the end. -/
def defaultedFields? (names : List String) : Json → Option (List (Option Json))
  | array items =>
    if items.length ≤ names.length then
      some (items.map some ++ List.replicate (names.length - items.length) none)
    else none
  | v => fields? names v

def fieldOr {α : Type} (default : α) (read : Json → Option α) : Option Json → Option α
  | some v => read v
  | none => some default

def variant? : Json → Option (String × Json)
  | string (some tag) => some (tag, null)
  | object [(some tag, payload)] => some (tag, payload)
  | _ => none

def variant (tag : String) (payload : Json) : Json := record [(tag, payload)]

def tag? (v : Json) : Option String :=
  match v.variant? with
  | some (tag, null) => some tag
  | _ => none

def map? {α : Type} (value : Json → Option α) : Json → Option (NameMap α)
  | object members => do
    let members ← named? members
    let entries ← members.mapM fun (k, v) => (value v).map fun a => (k, a)
    return NameMap.ofList entries
  | _ => none

def ofMap {α : Type} (value : α → Json) (m : NameMap α) : Json :=
  record (m.entries.map fun (k, a) => (k, value a))

end TensorSchema.Json
