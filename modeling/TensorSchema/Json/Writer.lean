import TensorSchema.Json.Basic

namespace TensorSchema.Json

def hexDigit (n : Nat) : Char := if n < 10 then Char.ofNat (48 + n) else Char.ofNat (87 + n)

def escape (c : Char) : List Char :=
  match c with
  | '"' => ['\\', '"']
  | '\\' => ['\\', '\\']
  | '\n' => ['\\', 'n']
  | '\r' => ['\\', 'r']
  | '\t' => ['\\', 't']
  | '\x08' => ['\\', 'b']
  | '\x0c' => ['\\', 'f']
  | c => if c.toNat < 32 then ['\\', 'u', '0', '0', hexDigit (c.toNat / 16), hexDigit (c.toNat % 16)]
    else [c]

def writeString (s : String) : List Char := '"' :: s.toList.flatMap escape ++ ['"']

/-- A string without characters is written as half of a surrogate pair. -/
def writeContent : Option String → List Char
  | some s => writeString s
  | none => "\"\\ud800\"".toList

mutual

def write : Json → List Char
  | null => "null".toList
  | bool true => "true".toList
  | bool false => "false".toList
  | number token => token
  | string content => writeContent content
  | array [] => ['[', ']']
  | array (v :: rest) => '[' :: write v ++ writeItems rest
  | object [] => ['\x7b', '\x7d']
  | object ((k, v) :: rest) => '\x7b' :: writeContent k ++ ':' :: write v ++ writeMembers rest

def writeItems : List Json → List Char
  | [] => [']']
  | v :: rest => ',' :: write v ++ writeItems rest

def writeMembers : List (Option String × Json) → List Char
  | [] => ['\x7d']
  | (k, v) :: rest => ',' :: writeContent k ++ ':' :: write v ++ writeMembers rest

end

def render (v : Json) : String := String.ofList (write v)

end TensorSchema.Json
