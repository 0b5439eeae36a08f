import TensorSchema.Double.Parts

namespace TensorSchema

def exactInt64 (i : Int) : Option Int64 :=
  if -0x8000000000000000 ≤ i ∧ i < 0x8000000000000000 then some (Int64.ofInt i) else none

namespace Double

/-- Applies `f mantissa divisor` to a double with a fractional part; all others are whole already. -/
def roundWith (f : Bool → Nat → Nat → Nat) (x : Float) : Float :=
  match parts x with
  | .finite negative m e => if 0 ≤ e then x else ofMagnitude negative (f negative m (twoTo (-e).toNat))
  | _ => x

def trunc : Float → Float := roundWith fun _ m d => m / d

def ceil : Float → Float := roundWith fun negative m d => if negative then m / d else (m + d - 1) / d

/-- Rounds to the nearest whole number, a half away from zero. -/
def round : Float → Float := roundWith fun _ m d => (2 * m + d) / (2 * d)

def toInt? (x : Float) : Option Int :=
  match parts x with
  | .finite negative m e =>
    some (signed negative (if 0 ≤ e then m * twoTo e.toNat else m / twoTo (-e).toNat))
  | _ => none

def whole? (x : Float) : Option Int :=
  match parts x with
  | .finite negative m e =>
    if 0 ≤ e then some (signed negative (m * twoTo e.toNat))
    else if m % twoTo (-e).toNat = 0 then some (signed negative (m / twoTo (-e).toNat))
    else none
  | _ => none

/-- The whole part brought into the range of integers with the given number of bits; zero stands for a
double that is not a number. -/
def clampWhole (bits : Nat) (x : Float) : Int :=
  let limit : Int := twoTo (bits - 1)
  match parts x with
  | .nan => 0
  | .infinite negative => if negative then -limit else limit - 1
  | .finite .. => max (-limit) (min ((toInt? x).getD 0) (limit - 1))

/-- Rounds to the nearest number of a format, a tie to the even one. -/
def toFormat (format : Float.Model.Format) :
    Float.Model.UnpackedFloat → Float.Model.UnpackedFloat
  | .finite sign mantissa exponent _ => .round format sign mantissa exponent
  | x => x

def toSingle (x : Float) : Float32 := .ofModel (.pack (toFormat .binary32 x.toModel.unpack))

def ofSingle (y : Float32) : Float := .ofModel (.pack (toFormat .binary64 y.toModel.unpack))

def maxNumber (x y : Float) : Float :=
  if x.isNaN then y else if y.isNaN then x else if x < y then y else x

def minNumber (x y : Float) : Float :=
  if x.isNaN then y else if y.isNaN then x else if y < x then y else x

end Double

end TensorSchema
