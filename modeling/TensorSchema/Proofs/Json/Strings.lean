import Mathlib
import TensorSchema.Json.Reader
import TensorSchema.Json.Writer

namespace TensorSchema.Json

variable {c : Char} {n : ℕ}

lemma hexValue?_hexDigit (h : n < 16) : hexValue? (hexDigit n) = some n := by
  interval_cases n <;> rfl

def piece (c : Char) : Piece :=
  if c.toNat < 32 ∧ c ∉ ['\n', '\r', '\t', '\x08', '\x0c'] then .unit c.toNat else .char c

lemma readPieces_unit (h : n < 256) (rest : List Char) :
    readPieces ('\\' :: 'u' :: '0' :: '0' :: hexDigit (n / 16) :: hexDigit (n % 16) :: rest) =
      (readPieces rest).map fun (pieces, rest) => (.unit n :: pieces, rest) := by
  have hzero : hexValue? '0' = some 0 := rfl
  rw [readPieces, hzero, hexValue?_hexDigit (by omega), hexValue?_hexDigit (by omega)]
  have hvalue : (((16 * 0 + 0) * 16 + n / 16) * 16 + n % 16) = n := by omega
  simp only [Option.bind_eq_bind, Option.bind_some, hvalue]
  cases readPieces rest <;> rfl

lemma readPieces_letter {letter : Char} (h : escaped? letter = some c) (rest : List Char) :
    readPieces ('\\' :: letter :: rest) =
      (readPieces rest).map fun (pieces, rest) => (.char c :: pieces, rest) := by
  have hletter : letter ≠ 'u' := by
    rintro rfl
    cases h
  rw [readPieces, h]
  · cases readPieces rest <;> rfl
  · simp_all

lemma readPieces_plain (hcontrol : 32 ≤ c.toNat) (hquote : c ≠ '"') (hbackslash : c ≠ '\\')
    (rest : List Char) :
    readPieces (c :: rest) = (readPieces rest).map fun (pieces, rest) => (.char c :: pieces, rest) := by
  rw [readPieces]
  · rw [if_neg (by simp [hbackslash]; omega)]
    cases readPieces rest <;> rfl
  all_goals simp_all

lemma readPieces_escape (c : Char) (rest : List Char) :
    readPieces (escape c ++ rest) =
      (readPieces rest).map fun (pieces, rest) => (piece c :: pieces, rest) := by
  unfold escape
  split
  case h_8 hquote hbackslash hnewline hreturn htab hbackspace hfeed =>
    split
    next hcontrol =>
      have hpiece : piece c = .unit c.toNat := if_pos (by simp_all)
      rw [hpiece]
      exact readPieces_unit (by omega) rest
    next hcontrol =>
      have hpiece : piece c = .char c := if_neg (by simp_all)
      rw [hpiece]
      exact readPieces_plain (by omega) hquote hbackslash rest
  all_goals exact readPieces_letter rfl rest

lemma readPieces_escapes (cs rest : List Char) :
    readPieces (cs.flatMap escape ++ '"' :: rest) = some (cs.map piece, rest) := by
  induction cs with
  | nil => rw [List.flatMap_nil, List.nil_append, readPieces]; rfl
  | cons c cs ih =>
    rw [List.flatMap_cons, List.append_assoc, readPieces_escape, ih]
    rfl

lemma joinPieces_unit (h : n < 0xD800) (pieces : List Piece) :
    joinPieces (.unit n :: pieces) = (joinPieces pieces).map (Char.ofNat n :: ·) := by
  have hhigh : ¬ (0xD800 ≤ n ∧ n < 0xDC00) := by omega
  have hlow : ¬ (0xDC00 ≤ n ∧ n < 0xE000) := by omega
  have hany : ¬ (0xD800 ≤ n ∧ n < 0xE000) := by omega
  cases pieces with
  | nil => simp [joinPieces, hany]
  | cons next rest =>
    cases next with
    | char c => simp [joinPieces, hany]
    | unit low => rw [joinPieces, if_neg hhigh, if_neg hlow]

lemma joinPieces_piece (c : Char) (pieces : List Piece) :
    joinPieces (piece c :: pieces) = (joinPieces pieces).map (c :: ·) := by
  unfold piece
  split
  next h => rw [joinPieces_unit (by omega), Char.ofNat_toNat]
  next => rw [joinPieces]

lemma joinPieces_pieces (cs : List Char) : joinPieces (cs.map piece) = some cs := by
  induction cs with
  | nil => rfl
  | cons c cs ih =>
    rw [List.map_cons, joinPieces_piece, ih]
    rfl

lemma readContent_escapes (s : String) (rest : List Char) :
    readContent (s.toList.flatMap escape ++ '"' :: rest) = some (some s, rest) := by
  simp [readContent, readPieces_escapes, joinPieces_pieces]

lemma writeContent_eq (content : Option String) : ∃ body, writeContent content = '"' :: body ∧
    ∀ rest, readContent (body ++ rest) = some (content, rest) := by
  cases content with
  | none => exact ⟨"\\ud800\"".toList, rfl, fun rest => rfl⟩
  | some s =>
    refine ⟨s.toList.flatMap escape ++ ['"'], rfl, fun rest => ?_⟩
    rw [List.append_assoc]
    exact readContent_escapes s rest

end TensorSchema.Json
