import Mathlib
import TensorSchema.Json.Reader

/-! The grammar of JSON numbers. A number is read as far as the grammar goes, if no character after it could
extend it. -/

namespace TensorSchema.Json

def IsDigits (cs : List Char) : Prop := cs ≠ [] ∧ ∀ c ∈ cs, c.isDigit = true

def IsWhole (cs : List Char) : Prop := cs = ['0'] ∨ IsDigits cs ∧ cs.head? ≠ some '0'

def IsFraction (cs : List Char) : Prop := cs = [] ∨ ∃ digits, IsDigits digits ∧ cs = '.' :: digits

def IsExponent (cs : List Char) : Prop :=
  cs = [] ∨ ∃ mark sign digits, (mark = 'e' ∨ mark = 'E') ∧ (sign = [] ∨ sign = ['+'] ∨ sign = ['-']) ∧
    IsDigits digits ∧ cs = mark :: (sign ++ digits)

def IsUnsigned (cs : List Char) : Prop :=
  ∃ whole fraction exponent, IsWhole whole ∧ IsFraction fraction ∧ IsExponent exponent ∧
    cs = whole ++ fraction ++ exponent

def IsNumber (cs : List Char) : Prop := IsUnsigned cs ∨ ∃ rest, IsUnsigned rest ∧ cs = '-' :: rest

def Avoids (p : Char → Prop) (cs : List Char) : Prop := ∀ c ∈ cs.head?, ¬ p c

def Extends (c : Char) : Prop := c.isDigit = true ∨ c = '.' ∨ c = 'e' ∨ c = 'E'

instance : DecidablePred Extends := fun c =>
  inferInstanceAs (Decidable (c.isDigit = true ∨ c = '.' ∨ c = 'e' ∨ c = 'E'))

variable {cs ds rest : List Char} {c : Char} {p q : Char → Prop}

lemma avoids_nil (p : Char → Prop) : Avoids p [] := by simp [Avoids]

lemma avoids_cons : Avoids p (c :: cs) ↔ ¬ p c := by simp [Avoids]

lemma Avoids.mono (h : Avoids p cs) (hpq : ∀ c, q c → p c) : Avoids q cs :=
  fun c hc hq => h c hc (hpq c hq)

lemma ne_of_isDigit {d e : Char} (hd : d.isDigit = true) (he : e.isDigit = false) : d ≠ e := by
  rintro rfl
  rw [hd] at he
  cases he

lemma IsDigits.exists_cons (h : IsDigits ds) : ∃ d rest, ds = d :: rest ∧ d.isDigit = true := by
  obtain ⟨hne, hdigits⟩ := h
  obtain ⟨d, rest, rfl⟩ := List.exists_cons_of_ne_nil hne
  exact ⟨d, rest, rfl, hdigits d List.mem_cons_self⟩

lemma IsDigits.append (h : IsDigits cs) (hds : ∀ c ∈ ds, c.isDigit = true) : IsDigits (cs ++ ds) :=
  ⟨by simp [h.1], List.forall_mem_append.mpr ⟨h.2, hds⟩⟩

lemma readDigits_append (h : IsDigits ds) (hrest : Avoids (·.isDigit = true) rest) :
    readDigits (ds ++ rest) = some (ds, rest) := by
  have htake : rest.takeWhile Char.isDigit = [] := by
    cases rest with
    | nil => rfl
    | cons c cs => simpa [avoids_cons] using hrest
  have hdrop : rest.dropWhile Char.isDigit = rest := by
    cases rest with
    | nil => rfl
    | cons c cs => simpa [avoids_cons] using hrest
  simp only [readDigits, List.takeWhile_append_of_pos h.2, List.dropWhile_append_of_pos h.2, htake, hdrop,
    List.append_nil, List.isEmpty_iff, h.1, if_false]

lemma readWhole_append (h : IsWhole cs) (hrest : Avoids (·.isDigit = true) rest) :
    readWhole (cs ++ rest) = some (cs, rest) := by
  rcases h with rfl | ⟨hdigits, hhead⟩
  · rfl
  · obtain ⟨d, ds, rfl, _⟩ := hdigits.exists_cons
    have hzero : d ≠ '0' := by simpa using hhead
    rw [← readDigits_append hdigits hrest, List.cons_append, readWhole]
    simp [hzero]

lemma readFraction_append (h : IsFraction cs) (hrest : Avoids (fun c => c.isDigit = true ∨ c = '.') rest) :
    readFraction (cs ++ rest) = some (cs, rest) := by
  rcases h with rfl | ⟨digits, hdigits, rfl⟩
  · cases rest with
    | nil => rfl
    | cons c cs =>
      rw [avoids_cons, not_or] at hrest
      rw [List.nil_append, readFraction]
      simp [hrest.2]
  · rw [List.cons_append, readFraction, readDigits_append hdigits (hrest.mono fun _ => Or.inl)]
    rfl

lemma readExponent_append (h : IsExponent cs) (hrest : Avoids Extends rest) :
    readExponent (cs ++ rest) = some (cs, rest) := by
  rcases h with rfl | ⟨mark, sign, digits, hmark, hsign, hdigits, rfl⟩
  · cases rest with
    | nil => rfl
    | cons c cs =>
      simp only [avoids_cons, Extends, not_or] at hrest
      simp [readExponent, hrest.2.2]
  · have hread := readDigits_append hdigits (hrest.mono fun _ => Or.inl)
    obtain ⟨d, ds, rfl, hd⟩ := hdigits.exists_cons
    have hplus : d ≠ '+' := ne_of_isDigit hd rfl
    have hminus : d ≠ '-' := ne_of_isDigit hd rfl
    rcases hsign with rfl | rfl | rfl <;> simp_all [readExponent]

lemma IsExponent.avoids (h : IsExponent cs) (hrest : Avoids Extends rest) :
    Avoids (fun c => c.isDigit = true ∨ c = '.') (cs ++ rest) := by
  rcases h with rfl | ⟨mark, sign, digits, hmark, _, _, rfl⟩
  · exact hrest.mono fun c hc => hc.imp_right Or.inl
  · rw [List.cons_append, avoids_cons]
    rcases hmark with rfl | rfl <;> decide

lemma IsFraction.avoids (h : IsFraction cs) (hrest : Avoids (fun c => c.isDigit = true ∨ c = '.') rest) :
    Avoids (·.isDigit = true) (cs ++ rest) := by
  rcases h with rfl | ⟨digits, _, rfl⟩
  · exact hrest.mono fun _ => Or.inl
  · rw [List.cons_append, avoids_cons]
    decide

lemma readUnsigned_append (h : IsUnsigned cs) (hrest : Avoids Extends rest) :
    readUnsigned (cs ++ rest) = some (cs, rest) := by
  obtain ⟨whole, fraction, exponent, hwhole, hfraction, hexponent, rfl⟩ := h
  have hafter := hexponent.avoids hrest
  rw [List.append_assoc, List.append_assoc, readUnsigned, readWhole_append hwhole (hfraction.avoids hafter)]
  simp only [Option.bind_eq_bind, Option.bind_some, readFraction_append hfraction hafter,
    readExponent_append hexponent hrest]
  simp

lemma IsWhole.exists_cons (h : IsWhole cs) : ∃ d rest, cs = d :: rest ∧ d.isDigit = true := by
  rcases h with rfl | ⟨hdigits, _⟩
  · exact ⟨'0', [], rfl, rfl⟩
  · exact hdigits.exists_cons

lemma IsUnsigned.exists_cons (h : IsUnsigned cs) : ∃ d rest, cs = d :: rest ∧ d.isDigit = true := by
  obtain ⟨whole, fraction, exponent, hwhole, _, _, rfl⟩ := h
  obtain ⟨d, rest, rfl, hd⟩ := hwhole.exists_cons
  exact ⟨d, _, rfl, hd⟩

lemma readNumber_append (h : IsNumber cs) (hrest : Avoids Extends rest) :
    readNumber (cs ++ rest) = some (cs, rest) := by
  rcases h with hunsigned | ⟨digits, hunsigned, rfl⟩
  · rw [← readUnsigned_append hunsigned hrest]
    obtain ⟨d, ds, rfl, hd⟩ := hunsigned.exists_cons
    have hminus : d ≠ '-' := ne_of_isDigit hd rfl
    rw [List.cons_append, readNumber]
    simp [hminus]
  · rw [List.cons_append, readNumber, readUnsigned_append hunsigned hrest]
    rfl

lemma IsNumber.exists_cons (h : IsNumber cs) :
    ∃ d rest, cs = d :: rest ∧ (d.isDigit = true ∨ d = '-') := by
  rcases h with hunsigned | ⟨digits, _, rfl⟩
  · obtain ⟨d, rest, hcs, hd⟩ := hunsigned.exists_cons
    exact ⟨d, rest, hcs, Or.inl hd⟩
  · exact ⟨'-', digits, rfl, Or.inr rfl⟩

end TensorSchema.Json
