/-! A double as a sign, a mantissa and a power of two. Every other question about a double (its integer
part, its nearest integer, its decimal digits) is answered from these parts in exact arithmetic. -/

namespace TensorSchema.Double

def twoTo (n : Nat) : Nat := 1 <<< n

def tenTo (n : Nat) : Nat := Nat.pow 10 n

inductive Parts where
  | nan
  | infinite (negative : Bool)
  | finite (negative : Bool) (mantissa : Nat) (exponent : Int)
deriving DecidableEq, Repr

/-- Subnormal numbers share the exponent of the smallest normal ones and lack the leading bit. -/
def parts (x : Float) : Parts :=
  let bits := x.toBits
  let negative := bits >>> 63 == 1
  let scale := (bits >>> 52 &&& 0x7ff).toNat
  let fraction := (bits &&& 0xfffffffffffff).toNat
  if scale = 2047 then
    if fraction = 0 then .infinite negative else .nan
  else if scale = 0 then .finite negative fraction (-1074)
  else .finite negative (0x10000000000000 + fraction) (scale - 1075)

/-- The double nearest to `± n`, for `n` below `2 ^ 64`; minus zero is kept apart from zero. -/
def ofMagnitude (negative : Bool) (n : Nat) : Float :=
  let x := (UInt64.ofNat n).toFloat
  if negative then -x else x

def ofInt (i : Int) : Float := ofMagnitude (i < 0) i.natAbs

def signed (negative : Bool) (n : Nat) : Int := if negative then -n else n

end TensorSchema.Double
