import TensorSchema.Json.Basic

/-! Strict reading of JSON text: no comments, no trailing commas, no leading zeros and no control characters
inside strings. -/

namespace TensorSchema.Json

def isSpace (c : Char) : Bool := c == ' ' || c == '\n' || c == '\t' || c == '\r'

def skipSpace (cs : List Char) : List Char := cs.dropWhile isSpace

inductive Piece where
  | char (c : Char)
  | unit (n : Nat)

def hexValue? (c : Char) : Option Nat :=
  if '0' ≤ c ∧ c ≤ '9' then some (c.toNat - 48)
  else if 'a' ≤ c ∧ c ≤ 'f' then some (c.toNat - 87)
  else if 'A' ≤ c ∧ c ≤ 'F' then some (c.toNat - 55)
  else none

def escaped? : Char → Option Char
  | '"' => some '"'
  | '\\' => some '\\'
  | '/' => some '/'
  | 'b' => some '\x08'
  | 'f' => some '\x0c'
  | 'n' => some '\n'
  | 'r' => some '\r'
  | 't' => some '\t'
  | _ => none

def readPieces : List Char → Option (List Piece × List Char)
  | [] => none
  | '"' :: rest => some ([], rest)
  | '\\' :: 'u' :: a :: b :: c :: d :: rest => do
    let a ← hexValue? a
    let b ← hexValue? b
    let c ← hexValue? c
    let d ← hexValue? d
    let (pieces, rest) ← readPieces rest
    return (.unit (((16 * a + b) * 16 + c) * 16 + d) :: pieces, rest)
  | '\\' :: letter :: rest => do
    let c ← escaped? letter
    let (pieces, rest) ← readPieces rest
    return (.char c :: pieces, rest)
  | c :: rest =>
    if c.toNat < 32 ∨ c = '\\' then none
    else do
      let (pieces, rest) ← readPieces rest
      return (.char c :: pieces, rest)

/-- The characters that pieces stand for. A high surrogate needs a low one right after it. -/
def joinPieces : List Piece → Option (List Char)
  | [] => some []
  | .char c :: rest => (joinPieces rest).map (c :: ·)
  | .unit high :: .unit low :: rest =>
    if 0xD800 ≤ high ∧ high < 0xDC00 then
      if 0xDC00 ≤ low ∧ low < 0xE000 then
        (joinPieces rest).map (Char.ofNat (0x10000 + (high - 0xD800) * 0x400 + (low - 0xDC00)) :: ·)
      else none
    else if 0xDC00 ≤ high ∧ high < 0xE000 then none
    else (joinPieces (.unit low :: rest)).map (Char.ofNat high :: ·)
  | .unit n :: rest =>
    if 0xD800 ≤ n ∧ n < 0xE000 then none else (joinPieces rest).map (Char.ofNat n :: ·)

def readContent (cs : List Char) : Option (Option String × List Char) :=
  (readPieces cs).map fun (pieces, rest) => ((joinPieces pieces).map String.ofList, rest)

def readDigits (cs : List Char) : Option (List Char × List Char) :=
  let digits := cs.takeWhile Char.isDigit
  if digits.isEmpty then none else some (digits, cs.dropWhile Char.isDigit)

def readWhole : List Char → Option (List Char × List Char)
  | '0' :: rest => some (['0'], rest)
  | cs => readDigits cs

def readFraction : List Char → Option (List Char × List Char)
  | '.' :: rest => (readDigits rest).map fun (digits, rest) => ('.' :: digits, rest)
  | cs => some ([], cs)

def readExponent : List Char → Option (List Char × List Char)
  | [] => some ([], [])
  | mark :: rest =>
    if mark = 'e' ∨ mark = 'E' then
      match rest with
      | sign :: more =>
        if sign = '+' ∨ sign = '-' then
          (readDigits more).map fun (digits, rest) => (mark :: sign :: digits, rest)
        else (readDigits rest).map fun (digits, rest) => (mark :: digits, rest)
      | [] => none
    else some ([], mark :: rest)

def readUnsigned (cs : List Char) : Option (List Char × List Char) := do
  let (whole, rest) ← readWhole cs
  let (fraction, rest) ← readFraction rest
  let (exponent, rest) ← readExponent rest
  return (whole ++ fraction ++ exponent, rest)

def readNumber : List Char → Option (List Char × List Char)
  | '-' :: rest => (readUnsigned rest).map fun (token, rest) => ('-' :: token, rest)
  | cs => readUnsigned cs

mutual

def readValue : Nat → List Char → Option (Json × List Char)
  | 0, _ => none
  | _ + 1, 'n' :: 'u' :: 'l' :: 'l' :: rest => some (null, rest)
  | _ + 1, 't' :: 'r' :: 'u' :: 'e' :: rest => some (bool true, rest)
  | _ + 1, 'f' :: 'a' :: 'l' :: 's' :: 'e' :: rest => some (bool false, rest)
  | _ + 1, '"' :: rest => (readContent rest).map fun (content, rest) => (string content, rest)
  | fuel + 1, '[' :: rest =>
    match skipSpace rest with
    | ']' :: rest => some (array [], rest)
    | rest => do
      let (v, rest) ← readValue fuel rest
      let (items, rest) ← readItems fuel (skipSpace rest)
      return (array (v :: items), rest)
  | fuel + 1, '\x7b' :: rest =>
    match skipSpace rest with
    | '\x7d' :: rest => some (object [], rest)
    | rest => do
      let (m, rest) ← readMember fuel rest
      let (members, rest) ← readMembers fuel (skipSpace rest)
      return (object (m :: members), rest)
  | _ + 1, cs => (readNumber cs).map fun (token, rest) => (number token, rest)

def readItems : Nat → List Char → Option (List Json × List Char)
  | _ + 1, ']' :: rest => some ([], rest)
  | fuel + 1, ',' :: rest => do
    let (v, rest) ← readValue fuel (skipSpace rest)
    let (items, rest) ← readItems fuel (skipSpace rest)
    return (v :: items, rest)
  | _, _ => none

def readMember : Nat → List Char → Option ((Option String × Json) × List Char)
  | fuel + 1, '"' :: rest => do
    let (key, rest) ← readContent rest
    match skipSpace rest with
    | ':' :: rest =>
      let (v, rest) ← readValue fuel (skipSpace rest)
      return ((key, v), rest)
    | _ => none
  | _, _ => none

def readMembers : Nat → List Char → Option (List (Option String × Json) × List Char)
  | _ + 1, '\x7d' :: rest => some ([], rest)
  | fuel + 1, ',' :: rest => do
    let (m, rest) ← readMember fuel (skipSpace rest)
    let (members, rest) ← readMembers fuel (skipSpace rest)
    return (m :: members, rest)
  | _, _ => none

end

/-- Reads a document with nothing but space around it. Every step of the recursion takes a character,
so that their number is fuel enough. -/
def parse? (s : String) : Option Json :=
  match readValue (s.length + 1) (skipSpace s.toList) with
  | some (v, rest) => if (skipSpace rest).isEmpty then some v else none
  | none => none

end TensorSchema.Json
