import TensorSchema.Dimension
import TensorSchema.Error

namespace TensorSchema

namespace Grid

def tolerance : Float := 1e-9

/-- Euclid's algorithm; `fuel` bounds the second number. -/
def euclid : Nat → Nat → Nat → Nat
  | 0, a, _ => a
  | fuel + 1, a, b => if b = 0 then a else euclid fuel b (a % b)

def commonDivisor (a b : Nat) : Nat := euclid b a b

def commonMultiple? (a b : Nat) : Option Nat :=
  let n := a / commonDivisor a b * b
  if n < 0x8000000000000000 then some n else none

def wholeSpacing? (x : Float) : Option Nat :=
  match Double.whole? x with
  | some n => if n < 0x8000000000000000 then some n.toNat else none
  | none => none

/-- The spacing of the points that two grids share. Spacings that do not agree up to the tolerance have
to be whole numbers, and share their least common multiple. -/
def commonSpacing? (a b : Float) : Option Float :=
  if (a - b).abs < tolerance then some a
  else match wholeSpacing? a, wholeSpacing? b with
  | some m, some n => (commonMultiple? m n).map (Double.ofMagnitude false)
  | _, _ => none

def onGrid (d : Dimension) (v : Float) : Bool :=
  let steps := (v - d.lower) / d.spacing
  (steps - Double.round steps).abs < tolerance

/-- The first of `count` grid points of `left`, from `first + k` steps on and up to `stop`, that lies
on the grid of `right`. -/
def firstShared (left right : Dimension) (first stop : Float) : Nat → Nat → Option Float
  | 0, _ => none
  | count + 1, k =>
    let v := left.lower + (first + Double.ofMagnitude false k) * left.spacing
    if v ≤ stop + tolerance then
      if onGrid right v then some v else firstShared left right first stop count (k + 1)
    else none

def lastPoint (lower stop spacing : Float) : Float :=
  lower + Double.trunc ((stop - lower) / spacing + tolerance) * spacing

/-- The bounds of the shared points. Within one period of the common spacing there is at most one of
them, so the search for the first one is over after a period. -/
def sharedBounds? (left right : Dimension) (spacing : Float) : Option (Float × Float) :=
  let start := Double.maxNumber left.lower right.lower
  let stop := Double.minNumber left.upper right.upper
  let first := Double.ceil ((start - left.lower) / left.spacing - tolerance)
  let period := Double.clampWhole 64 (Double.round (spacing / left.spacing))
  (firstShared left right first stop (max period 1).toNat 0).map fun lower =>
    (lower, lastPoint lower stop spacing)

end Grid

namespace Dimension

def intersect (left right : Dimension) : Except Fault Dimension :=
  if !left.isImplicit || !right.isImplicit then .error (.notMaterialized left.name right.name)
  else if !left.hasStep then .error (.badSpacing left.name left.spacing)
  else if !right.hasStep then .error (.badSpacing right.name right.spacing)
  else match Grid.commonSpacing? left.spacing right.spacing with
  | none => .error (.noCommonGrid left.name left.spacing right.name right.spacing)
  | some spacing =>
    match Grid.sharedBounds? left right spacing with
    | none => .error (.disjoint left.name right.name)
    | some (lower, upper) =>
      if (lengthBetween lower upper spacing).isNone then
        .error (.longIntersection left.name right.name)
      else .ok (implicit left.name left.type lower upper spacing)

end Dimension

end TensorSchema
