import Mathlib
import TensorSchema.Json.Number
import TensorSchema.Proofs.Double.Shortest
import TensorSchema.Proofs.Json.NumberGrammar

namespace TensorSchema.Json

variable {n : ℕ}

lemma isDigits_toDigits (n : ℕ) : IsDigits (Nat.toDigits 10 n) :=
  ⟨Nat.toDigits_ne_nil, fun _ hc => Nat.isDigit_of_mem_toDigits (by decide) (by decide) hc⟩

lemma head?_toDigits_ne_zero (hn : n ≠ 0) : (Nat.toDigits 10 n).head? ≠ some '0' := by
  induction n using Nat.strong_induction_on with
  | _ n ih =>
    by_cases hlt : n < 10
    · rw [Nat.toDigits_of_lt_base hlt]
      interval_cases n <;> simp_all [Nat.digitChar]
    · rw [Nat.toDigits_of_base_le (by decide) (by omega),
        List.head?_append_of_ne_nil _ Nat.toDigits_ne_nil]
      exact ih (n / 10) (by omega) (by omega)

lemma isWhole_toDigits (n : ℕ) : IsWhole (Nat.toDigits 10 n) := by
  rcases eq_or_ne n 0 with rfl | hn
  · exact Or.inl rfl
  · exact Or.inr ⟨isDigits_toDigits n, head?_toDigits_ne_zero hn⟩

lemma IsWhole.isUnsigned {cs : List Char} (h : IsWhole cs) : IsUnsigned cs :=
  ⟨cs, [], [], h, Or.inl rfl, Or.inl rfl, by simp⟩

lemma digitsValue_toDigits (n : ℕ) : Double.digitsValue (Nat.toDigits 10 n) = n :=
  Nat.ofDigitChars_ten_toDigits

section Integers

lemma ofInt_natCast (n : ℕ) : ofInt n = number (Nat.toDigits 10 n) := by
  rw [ofInt, Int.toString_eq_repr]
  change number (Nat.repr n).toList = _
  rw [Nat.repr, String.toList_ofList]

lemma ofInt_negSucc (n : ℕ) : ofInt (Int.negSucc n) = number ('-' :: Nat.toDigits 10 (n + 1)) := by
  rw [ofInt, Int.toString_eq_repr]
  change number ("-" ++ Nat.repr (n + 1)).toList = _
  simp [Nat.repr]

lemma isNumber_ofInt (i : ℤ) : ∃ token, IsNumber token ∧ ofInt i = number token := by
  cases i with
  | ofNat n => exact ⟨_, Or.inl (isWhole_toDigits n).isUnsigned, ofInt_natCast n⟩
  | negSucc n => exact ⟨_, Or.inr ⟨_, (isWhole_toDigits (n + 1)).isUnsigned, rfl⟩, ofInt_negSucc n⟩

lemma int?_ofInt (i : ℤ) : (ofInt i).int? = some i := by
  cases i with
  | ofNat n =>
    rw [Int.ofNat_eq_natCast, ofInt_natCast]
    have hvalue := digitsValue_toDigits n
    have hdigits := isDigits_toDigits n
    obtain ⟨d, ds, hds, hd⟩ := hdigits.exists_cons
    have hminus : d ≠ '-' := ne_of_isDigit hd rfl
    rw [hds] at hvalue hdigits ⊢
    have hall : (d :: ds).all Char.isDigit = true := List.all_eq_true.mpr hdigits.2
    rw [int?]
    · simp [hall, hvalue]
    · simp [hminus]
  | negSucc n =>
    have hall : (Nat.toDigits 10 (n + 1)).all Char.isDigit = true :=
      List.all_eq_true.mpr (isDigits_toDigits (n + 1)).2
    rw [ofInt_negSucc, int?]
    simp [digitsValue_toDigits, hall, Int.negSucc_eq]

lemma int64?_ofInt (w : Int64) : (ofInt w.toInt).int64? = some w := by
  have hlow := w.le_toInt
  have hhigh := w.toInt_lt
  rw [int64?, int?_ofInt, Option.bind_some, exactInt64, if_pos (by omega), Int64.ofInt_toInt]

lemma uint32?_ofInt (w : UInt32) : (ofInt w.toNat).uint32? = some w := by
  have hhigh := w.toNat_lt
  rw [uint32?, int?_ofInt, Option.bind_some, exactUInt32, if_pos (by omega), Int.toNat_natCast,
    UInt32.ofNat_toNat]

end Integers

section Doubles

variable {cs ds : List Char} {exponent : ℤ}

lemma IsDigits.of_subset (h : IsDigits ds) (hne : cs ≠ []) (hsub : cs ⊆ ds) : IsDigits cs :=
  ⟨hne, fun c hc => h.2 c (hsub hc)⟩

lemma isDigit_of_mem_replicate (k : ℕ) : ∀ c ∈ List.replicate k '0', c.isDigit = true := by
  intro c hc
  rw [List.eq_of_mem_replicate hc]
  rfl

lemma isUnsigned_positionalText (h : n = 0 → exponent ≤ 0) :
    IsUnsigned (Double.positionalText .snapshot (Nat.toDigits 10 n) exponent).toList := by
  have hdigits := isDigits_toDigits n
  simp only [Double.positionalText, Double.zeros, Double.Layout.snapshot]
  split_ifs with hexponent hwhole
  -- a whole number: zeros are appended to the digits, though never to a zero
  · refine ⟨Nat.toDigits 10 n ++ List.replicate exponent.toNat '0', ['.', '0'], [], ?_,
      Or.inr ⟨['0'], by simp [IsDigits], rfl⟩, Or.inl rfl, by simp⟩
    rcases eq_or_ne n 0 with rfl | hn
    · rw [show exponent = 0 from le_antisymm (h rfl) hexponent]
      exact Or.inl rfl
    · refine Or.inr ⟨hdigits.append (isDigit_of_mem_replicate _), ?_⟩
      rw [List.head?_append_of_ne_nil _ hdigits.1]
      exact head?_toDigits_ne_zero hn
  -- the point falls among the digits, of which there are at least two
  · generalize hk : ((Nat.toDigits 10 n).length + exponent).toNat = k
    have hlength := List.length_pos_iff.mpr hdigits.1
    have hn : n ≠ 0 := by
      rintro rfl
      have hone : (Nat.toDigits 10 0).length = 1 := rfl
      omega
    refine ⟨(Nat.toDigits 10 n).take k, '.' :: (Nat.toDigits 10 n).drop k, [], Or.inr ⟨?_, ?_⟩,
      Or.inr ⟨_, ?_, rfl⟩, Or.inl rfl, by simp⟩
    · exact hdigits.of_subset (by simp [hdigits.1]; omega) (List.take_subset _ _)
    · rw [List.head?_take, if_neg (by omega)]
      exact head?_toDigits_ne_zero hn
    · exact hdigits.of_subset (by simp; omega) (List.drop_subset _ _)
  -- all digits stand after the point
  · refine ⟨['0'], '.' :: (List.replicate _ '0' ++ Nat.toDigits 10 n), [], Or.inl rfl,
      Or.inr ⟨_, ?_, rfl⟩, Or.inl rfl, by simp; rfl⟩
    exact ⟨by simp [hdigits.1], List.forall_mem_append.mpr ⟨isDigit_of_mem_replicate _, hdigits.2⟩⟩

lemma isExponent_exponentText (e : ℤ) : IsExponent (Double.exponentText e).toList := by
  rw [Double.exponentText, Nat.toString_eq_ofList_toDigits]
  refine Or.inr ⟨'e', if e < 0 then ['-'] else ['+'], Nat.toDigits 10 e.natAbs, Or.inl rfl, ?_,
    isDigits_toDigits _, ?_⟩
  · split_ifs <;> simp
  · split_ifs <;> simp

lemma isUnsigned_scientificText (h : IsDigits ds) (e : ℤ) :
    IsUnsigned (Double.scientificText ds e).toList := by
  have hexponent := isExponent_exponentText e
  obtain ⟨d, ds, rfl, hd⟩ := h.exists_cons
  have hwhole : IsWhole [d] := by
    rcases eq_or_ne d '0' with rfl | hne
    · exact Or.inl rfl
    · exact Or.inr ⟨by simp [IsDigits, hd], by simpa using hne⟩
  cases ds with
  | nil => exact ⟨[d], [], _, hwhole, Or.inl rfl, hexponent, by simp [Double.scientificText]⟩
  | cons d' ds =>
    refine ⟨[d], '.' :: d' :: ds, _, hwhole, Or.inr ⟨_, ?_, rfl⟩, hexponent,
      by simp [Double.scientificText]⟩
    exact h.of_subset (by simp) (List.subset_cons_self _ _)

lemma isNumber_text {x : Float} (h : x.isFinite = true) :
    IsNumber (Double.text .snapshot x).toList := by
  obtain ⟨negative, m, q, hparts⟩ := Double.parts_of_isFinite h
  have hunsigned : IsUnsigned ((Double.shortest Double.Layout.snapshot.ties m q).text .snapshot).toList := by
    rw [Double.Decimal.text]
    split
    · exact isUnsigned_positionalText Double.shortest_exponent
    · exact isUnsigned_scientificText (isDigits_toDigits _) _
  rw [Double.text, hparts]
  cases negative with
  | false => exact Or.inl (by simpa using hunsigned)
  | true => exact Or.inr ⟨_, hunsigned, by simp⟩

end Doubles

end TensorSchema.Json
