import TensorSchema.Double.Parts

/-! The fewest decimal digits that read back as a given double. The doubles nearest to a real number form an
interval around each double; the search walks the decimal grids from the coarsest to the finest and takes
the first one with a point in that interval. -/

namespace TensorSchema.Double

structure Decimal where
  coefficient : Nat
  exponent : Int
deriving DecidableEq, Repr

inductive Ties where
  | up
  | toEven
deriving DecidableEq, Repr

/-- The point of the grid `10 ^ k` that reads back as `m * 2 ^ q`, the nearer one if there are two.
Lengths are counted in quarters of the last place of `m`, so that both halves of the interval, of
which the lower one is short below a power of two, have whole ends. -/
def gridPoint? (ties : Ties) (m : Nat) (q : Int) (k : Int) : Option Nat :=
  let scale := twoTo (q - 2).toNat * tenTo (-k).toNat
  let unit := twoTo (2 - q).toNat * tenTo k.toNat
  let value := 4 * m * scale
  let below := if m = 0x10000000000000 ∧ -1074 < q then value - scale else value - 2 * scale
  let above := value + 2 * scale
  let n := value / unit
  let within (p : Nat) : Bool :=
    if m % 2 = 0 then below ≤ p * unit && p * unit ≤ above else below < p * unit && p * unit < above
  match within n, within (n + 1) with
  | true, true =>
    let toLower := value - n * unit
    let toUpper := (n + 1) * unit - value
    if toLower < toUpper then some n
    else if toUpper < toLower then some (n + 1)
    else match ties with
      | .up => some (n + 1)
      | .toEven => if n % 2 = 0 then some n else some (n + 1)
  | true, false => some n
  | false, true => some (n + 1)
  | false, false => none

def searchGrid (ties : Ties) (m : Nat) (q : Int) : Nat → Int → Option Decimal
  | 0, _ => none
  | fuel + 1, k =>
    match gridPoint? ties m q k with
    | some n => some ⟨n, k⟩
    | none => searchGrid ties m q fuel (k - 1)

def exactDecimal (m : Nat) (q : Int) : Decimal :=
  if 0 ≤ q then ⟨m * twoTo q.toNat, 0⟩ else ⟨m * Nat.pow 5 (-q).toNat, q⟩

/-- The shortest decimal for `m * 2 ^ q`. The search starts above the leading digit and ends below
the seventeenth, where every double has a decimal of its own. -/
def shortest (ties : Ties) (m : Nat) (q : Int) : Decimal :=
  if m = 0 then ⟨0, 0⟩
  else
    let leading := (q + m.log2) * 30103 / 100000
    (searchGrid ties m q 24 (leading + 3)).getD (exactDecimal m q)

end TensorSchema.Double
