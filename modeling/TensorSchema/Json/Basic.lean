/-! JSON documents. A number is kept as it is written. A string whose escapes include half of a surrogate
pair has no characters, though it may stand wherever its content does not matter. -/

namespace TensorSchema

inductive Json where
  | null
  | bool (b : Bool)
  | number (token : List Char)
  | string (content : Option String)
  | array (items : List Json)
  | object (members : List (Option String × Json))

namespace Json

def text (s : String) : Json := string (some s)

def record (members : List (String × Json)) : Json := object (members.map fun (k, v) => (some k, v))

end Json

end TensorSchema
