import TensorSchema.Double.Rounding

namespace TensorSchema

inductive DataType where
  | int
  | long
  | float
  | double
  | boolean
  | string
deriving DecidableEq, Repr

namespace DataType

def name : DataType → String
  | int => "int"
  | long => "long"
  | float => "float"
  | double => "double"
  | boolean => "boolean"
  | string => "string"

def rank : DataType → Option Nat
  | int => some 0
  | long => some 1
  | float => some 2
  | double => some 3
  | boolean => none
  | string => none

def isNumeric (t : DataType) : Bool := t.rank.isSome

def ofLetter? : Char → Option DataType
  | 'i' => some int
  | 'l' => some long
  | 'f' => some float
  | 'd' => some double
  | 'b' => some boolean
  | 's' => some string
  | _ => none

/-- The characters with the Unicode property `White_Space`. -/
def isBlank (c : Char) : Bool :=
  let n := c.toNat
  (9 ≤ n && n ≤ 13) || n == 0x20 || n == 0x85 || n == 0xA0 || n == 0x1680
    || (0x2000 ≤ n && n ≤ 0x200A) || n == 0x2028 || n == 0x2029 || n == 0x202F
    || n == 0x205F || n == 0x3000

/-- Only the first letter decides, in either case, so that both `int` and `integer` are names. -/
def ofName? (s : String) : Option DataType :=
  (s.toList.dropWhile isBlank).head?.bind fun c => ofLetter? c.toLower

def unknownMessage (s : String) : String := s!"unknown data type '{s}'"

/-- The type of a literal: the first in the order of widening that gives the same double back. -/
def natural (x : Float) : DataType :=
  if x == Double.ofInt (Double.clampWhole 32 x) then int
  else if x == Double.ofInt (Double.clampWhole 64 x) then long
  else if x == Double.ofSingle (Double.toSingle x) then float
  else double

end DataType

end TensorSchema
