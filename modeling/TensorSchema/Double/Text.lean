import TensorSchema.Double.Shortest

namespace TensorSchema.Double

structure Layout where
  ties : Ties
  positional : Int → Bool
  /-- What follows a whole number written positionally. -/
  wholeEnd : String

def Layout.message : Layout := ⟨.up, fun _ => true, ""⟩

def Layout.snapshot : Layout := ⟨.toEven, fun e => -5 ≤ e && e ≤ 15, ".0"⟩

def zeros (n : Nat) : String := String.ofList (List.replicate n '0')

def positionalText (layout : Layout) (digits : List Char) (exponent : Int) : String :=
  let whole := digits.length + exponent
  if 0 ≤ exponent then String.ofList digits ++ zeros exponent.toNat ++ layout.wholeEnd
  else if 0 < whole then
    String.ofList (digits.take whole.toNat) ++ "." ++ String.ofList (digits.drop whole.toNat)
  else "0." ++ zeros (-whole).toNat ++ String.ofList digits

def exponentText (e : Int) : String :=
  (if e < 0 then "e-" else "e+") ++ toString e.natAbs

def scientificText (digits : List Char) (e : Int) : String :=
  let tail := if digits.length ≤ 1 then "" else "." ++ String.ofList (digits.drop 1)
  String.ofList (digits.take 1) ++ tail ++ exponentText e

def Decimal.text (layout : Layout) (d : Decimal) : String :=
  let digits := Nat.toDigits 10 d.coefficient
  let e := digits.length - 1 + d.exponent
  if layout.positional e then positionalText layout digits d.exponent else scientificText digits e

def text (layout : Layout) (x : Float) : String :=
  match parts x with
  | .nan => "NaN"
  | .infinite negative => if negative then "-inf" else "inf"
  | .finite negative m q => (if negative then "-" else "") ++ (shortest layout.ties m q).text layout

def message (x : Float) : String := text .message x

def ofDecimal (negative : Bool) (d : Decimal) : Float :=
  let x := Float.ofScientific d.coefficient (d.exponent < 0) d.exponent.natAbs
  if negative then -x else x

def digitsValue (digits : List Char) : Nat := digits.foldl (fun n c => 10 * n + (c.toNat - 48)) 0

def readExponent : List Char → Option Int
  | [] => some 0
  | mark :: rest =>
    let (negative, digits) := match rest with
      | '-' :: r => (true, r)
      | '+' :: r => (false, r)
      | r => (false, r)
    if (mark = 'e' ∨ mark = 'E') ∧ digits ≠ [] ∧ digits.all Char.isDigit then
      some (signed negative (digitsValue digits))
    else none

def readMagnitude (cs : List Char) : Option Decimal :=
  let whole := cs.takeWhile Char.isDigit
  let afterWhole := cs.dropWhile Char.isDigit
  let (fraction, afterFraction) := match afterWhole with
    | '.' :: r => (r.takeWhile Char.isDigit, r.dropWhile Char.isDigit)
    | r => ([], r)
  if whole = [] ∧ fraction = [] then none
  else (readExponent afterFraction).map fun e => ⟨digitsValue (whole ++ fraction), e - fraction.length⟩

def ofDecimalText? (s : String) : Option Float :=
  match s.toList with
  | '-' :: cs => (readMagnitude cs).map (ofDecimal true)
  | '+' :: cs => (readMagnitude cs).map (ofDecimal false)
  | cs => (readMagnitude cs).map (ofDecimal false)

def ofText? (s : String) : Option Float :=
  match s with
  | "nan" => some (0 / 0)
  | "inf" => some (1 / 0)
  | "-inf" => some (-1 / 0)
  | _ => ofDecimalText? s

end TensorSchema.Double
