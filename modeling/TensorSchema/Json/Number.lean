import TensorSchema.Double.Rounding
import TensorSchema.Double.Text
import TensorSchema.Json.Basic

/-! Numbers in JSON documents. A double is read in two roundings: its leading digits, as many as 64 bits
hold, become a double, which is then scaled by a power of ten. What is not a number has no text. -/

namespace TensorSchema.Json

def ofInt (i : Int) : Json := number (toString i).toList

def ofFloat (x : Float) : Json :=
  if x.isFinite then number (Double.text .snapshot x).toList else null

/-- Extends a coefficient by digits as long as it is below `2 ^ 64`, and counts the digits left over. -/
def extend (coefficient : Nat) : List Char → Nat × Nat
  | [] => (coefficient, 0)
  | c :: rest =>
    let n := 10 * coefficient + (c.toNat - 48)
    if n < 0x10000000000000000 then extend n rest else (coefficient, rest.length + 1)

def powerOfTen (n : Nat) : Float := Float.ofScientific 1 false n

def scaleDown : Nat → Float → Nat → Float
  | 0, x, _ => x
  | fuel + 1, x, n =>
    if n ≤ 308 then x / powerOfTen n else scaleDown fuel (x / powerOfTen 308) (n - 308)

/-- Multiplies by a power of ten; a number out of range has no value. Three steps down bring every
coefficient to zero. -/
def scale? (x : Float) (e : Int) : Option Float :=
  if e < 0 then some (scaleDown 4 x e.natAbs)
  else if x == 0 then some x
  else if e ≤ 308 then
    let y := x * powerOfTen e.toNat
    if y.isFinite then some y else none
  else none

def readMagnitude? (cs : List Char) : Option Float :=
  let whole := cs.takeWhile Char.isDigit
  let (fraction, rest) := match cs.dropWhile Char.isDigit with
    | '.' :: r => (r.takeWhile Char.isDigit, r.dropWhile Char.isDigit)
    | r => ([], r)
  let (coefficient, skipped) := extend 0 whole
  let (coefficient, unread) := extend coefficient fraction
  match Double.readExponent rest with
  | some e =>
    scale? (Double.ofMagnitude false coefficient) (e + skipped - (fraction.length - unread : Nat))
  | none => none

def float? : Json → Option Float
  | number ('-' :: cs) => (readMagnitude? cs).map (- ·)
  | number cs => readMagnitude? cs
  | _ => none

/-- A whole number written by its digits alone; minus zero is none. -/
def int? : Json → Option Int
  | number ('-' :: digits) =>
    let n := Double.digitsValue digits
    if digits.all Char.isDigit && n != 0 then some (-n) else none
  | number digits =>
    if digits.all Char.isDigit && !digits.isEmpty then some (Double.digitsValue digits) else none
  | _ => none

def int64? (v : Json) : Option Int64 := v.int?.bind exactInt64

def exactUInt32 (i : Int) : Option UInt32 :=
  if 0 ≤ i ∧ i < 0x100000000 then some (UInt32.ofNat i.toNat) else none

def uint32? (v : Json) : Option UInt32 := v.int?.bind exactUInt32

end TensorSchema.Json
