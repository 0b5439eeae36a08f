import Mathlib
import TensorSchema.Proofs.Double.Whole

/-! The numbers that 32-bit floats stand for, and the doubles that conversion to single precision and back
leaves as they are. -/

namespace TensorSchema.Double

open Float.Model Float.Model.UnpackedFloat

def singleValue? (y : Float32) : Option ℚ :=
  match y.toModel.unpack with
  | .zero _ => some 0
  | .finite s m e _ => some (signedBy s (m * 2 ^ e))
  | _ => none

def FitsSingle (q : ℚ) : Prop := ∃ k e : ℤ, |k| < 2 ^ 24 ∧ -149 ≤ e ∧ e ≤ 104 ∧ q = k * 2 ^ e

section Format

variable {q : ℚ} {s : Sign} {m : ℕ} {e : ℤ} {hm : 0 < m}

lemma unpack_single {b : BitVec 32} (h : UnpackedFloat.unpack .binary32 b = .finite s m e hm) :
    m < 2 ^ 24 ∧ -149 ≤ e ∧ e ≤ 104 := by
  have hfraction : (@unpackMantissa .binary32 b).toNat < 2 ^ 23 := BitVec.isLt _
  have hscale : (@unpackExponent .binary32 b).toNat < 2 ^ 8 := BitVec.isLt _
  have hequal (k : ℕ) : (@unpackExponent .binary32 b).toNat = k % 2 ^ 8 ↔
      @unpackExponent .binary32 b = BitVec.ofNat 8 k := BitVec.toNat_inj (y := BitVec.ofNat 8 k)
  rw [UnpackedFloat.unpack] at h
  split at h
  next => split at h <;> cases h
  next htop =>
    have htop' := mt (hequal 255).mp htop
    split at h
    next hbottom =>
      split at h <;> cases h
      rw [hbottom]
      exact ⟨hfraction.trans (by norm_num), by decide, by decide⟩
    next hbottom =>
      have hbottom' := mt (hequal 0).mp hbottom
      cases h
      rw [toNat_one_append]
      change 2 ^ 23 + _ < _ ∧ _ ≤ (BitVec.toNat _ : ℤ) - (127 + 23) ∧ (BitVec.toNat _ : ℤ) - (127 + 23) ≤ _
      omega

lemma unpack_pack_normal (hnormal : 2 ^ 23 ≤ m) (hhigh : m < 2 ^ 24) (hlow : -149 ≤ e) (hmax : e ≤ 104) :
    UnpackedFloat.unpack .binary32 (UnpackedFloat.pack .binary32 (.finite s m e hm)) =
      .finite s m e hm := by
  have hsmall : ¬ 2 ^ 8 ≤ (e + 127 + 23).toNat + 1 := by omega
  have hlog : m.log2 + 1 = 24 := congrArg (· + 1) ((Nat.log2_eq_iff hm.ne').mpr ⟨hnormal, hhigh⟩)
  have hpack : UnpackedFloat.pack .binary32 (.finite s m e hm) =
      packComponents .binary32 s (BitVec.ofNat 8 (e + 127 + 23).toNat) (BitVec.ofNat 23 m) :=
    (if_neg hsmall).trans (if_pos hlog)
  have hscale : (BitVec.ofNat 8 (e + 127 + 23).toNat).toNat = (e + 127 + 23).toNat := by
    rw [BitVec.toNat_ofNat]
    omega
  have hne : ∀ k : BitVec 8, k.toNat ≠ (e + 127 + 23).toNat →
      BitVec.ofNat 8 (e + 127 + 23).toNat ≠ k := by
    rintro k hk rfl
    exact hk hscale
  rw [hpack, UnpackedFloat.unpack]
  simp only [unpackExponent_packComponents, unpackMantissa_packComponents, ofBitVec_unpackSign]
  rw [if_neg (hne _ (by change 255 ≠ _; omega)), if_neg (hne _ (by change 0 ≠ _; omega))]
  congr 1
  · rw [toNat_one_append, BitVec.toNat_ofNat]
    omega
  · rw [hscale]
    change _ - (127 + 23 : ℤ) = _
    omega

lemma unpack_pack_subnormal (hsmall : m < 2 ^ 23) (he : e = -149) :
    UnpackedFloat.unpack .binary32 (UnpackedFloat.pack .binary32 (.finite s m e hm)) =
      .finite s m e hm := by
  have hlow : ¬ 2 ^ 8 ≤ (e + 127 + 23).toNat + 1 := by omega
  have hlog : ¬ m.log2 + 1 = 24 := by
    have := (Nat.log2_lt hm.ne').mpr hsmall
    omega
  have hpack : UnpackedFloat.pack .binary32 (.finite s m e hm) =
      packComponents .binary32 s 0#8 (BitVec.ofNat 23 m) := (if_neg hlow).trans (if_neg hlog)
  have hfraction : (BitVec.ofNat 23 m).toNat = m := by rw [BitVec.toNat_ofNat, Nat.mod_eq_of_lt hsmall]
  have hne : BitVec.ofNat 23 m ≠ 0#23 := by
    intro h
    rw [h] at hfraction
    exact hm.ne hfraction
  rw [hpack, UnpackedFloat.unpack]
  simp only [unpackExponent_packComponents, unpackMantissa_packComponents, ofBitVec_unpackSign]
  rw [if_neg (by decide), if_pos trivial, dif_neg hne]
  congr 1
  exact he.symm

lemma unpack_pack_single (hhigh : m < 2 ^ 24) (hlow : -149 ≤ e) (hmax : e ≤ 104)
    (hshape : 2 ^ 23 ≤ m ∨ e = -149) :
    UnpackedFloat.unpack .binary32 (UnpackedFloat.pack .binary32 (.finite s m e hm)) =
      .finite s m e hm := by
  by_cases hnormal : 2 ^ 23 ≤ m
  · exact unpack_pack_normal hnormal hhigh hlow hmax
  · exact unpack_pack_subnormal (not_le.mp hnormal) (hshape.resolve_left hnormal)

lemma two_zpow_log2_le (hm : m ≠ 0) (e : ℤ) : (2 : ℚ) ^ (e + m.log2) ≤ m * 2 ^ e := by
  rw [zpow_add₀ two_ne_zero, mul_comm, zpow_natCast]
  apply mul_le_mul_of_nonneg_right _ (two_zpow_pos e).le
  exact_mod_cast Nat.log2_self_le hm

lemma lt_two_zpow_log2 (m : ℕ) (e : ℤ) : (m : ℚ) * 2 ^ e < 2 ^ (e + m.log2 + 1) := by
  rw [add_assoc, zpow_add₀ two_ne_zero, mul_comm]
  apply mul_lt_mul_of_pos_left _ (two_zpow_pos e)
  exact_mod_cast Nat.lt_log2_self

lemma fitsSingle_zero : FitsSingle 0 := ⟨0, 0, by norm_num, by norm_num, by norm_num, by simp⟩

lemma FitsSingle.neg (h : FitsSingle q) : FitsSingle (-q) := by
  obtain ⟨k, e, hk, hlow, hhigh, rfl⟩ := h
  exact ⟨-k, e, by rwa [abs_neg], hlow, hhigh, by push_cast; ring⟩

lemma fitsSingle_signedBy (s : Sign) : FitsSingle (signedBy s q) ↔ FitsSingle q := by
  cases s with
  | negative => exact ⟨fun h => neg_neg q ▸ h.neg, .neg⟩
  | positive => rfl

/-- Below `2 ^ 128`, a 32-bit float is a multiple of the unit at its magnitude. -/
lemma fitsSingle_iff (hm : m ≠ 0) : FitsSingle (m * 2 ^ e) ↔
    e + m.log2 ≤ 127 ∧ ∃ k : ℤ, (m : ℚ) * 2 ^ e = k * 2 ^ max (e + m.log2 - 23) (-149) := by
  have hleast := two_zpow_log2_le hm e
  have hmost := lt_two_zpow_log2 m e
  constructor
  · rintro ⟨k, f, hk, hlow, hhigh, hvalue⟩
    have hbound : (2 : ℚ) ^ (e + m.log2) < 2 ^ (24 + f) := by
      calc (2 : ℚ) ^ (e + m.log2) ≤ k * 2 ^ f := hvalue ▸ hleast
        _ < 2 ^ 24 * 2 ^ f := by
            apply mul_lt_mul_of_pos_right _ (two_zpow_pos f)
            exact_mod_cast (le_abs_self k).trans_lt hk
        _ = 2 ^ (24 + f) := (zpow_add₀ two_ne_zero 24 f).symm
    have htop := (zpow_lt_zpow_iff_right₀ one_lt_two).mp hbound
    refine ⟨by omega, _, hvalue.trans (zpow_of_le k ?_)⟩
    omega
  · rintro ⟨htop, k, hvalue⟩
    refine ⟨k, _, ?_, le_max_right _ _, by omega, hvalue⟩
    have hk : (0 : ℚ) ≤ k := by
      apply nonneg_of_mul_nonneg_left (b := 2 ^ max (e + m.log2 - 23) (-149)) _ (two_zpow_pos _)
      rw [← hvalue]
      exact mul_nonneg (Nat.cast_nonneg m) (two_zpow_pos e).le
    have hbound : (k : ℚ) * 2 ^ max (e + m.log2 - 23) (-149) <
        2 ^ 24 * 2 ^ max (e + m.log2 - 23) (-149) := by
      calc (k : ℚ) * 2 ^ max (e + m.log2 - 23) (-149) < 2 ^ (e + m.log2 + 1) := hvalue ▸ hmost
        _ ≤ 2 ^ (24 + max (e + m.log2 - 23) (-149)) := zpow_le_zpow_right₀ one_le_two (by omega)
        _ = 2 ^ 24 * 2 ^ max (e + m.log2 - 23) (-149) := zpow_add₀ two_ne_zero 24 _
    have hlt := lt_of_mul_lt_mul_right hbound (two_zpow_pos _).le
    rw [abs_of_nonneg (by exact_mod_cast hk)]
    exact_mod_cast hlt

lemma singleValue?_pack_zero (s : Sign) : singleValue? ⟨Float32.Model.pack (.zero s)⟩ = some 0 := by
  cases s <;> rfl

lemma singleValue?_pack (hm : 0 < m) (hhigh : m < 2 ^ 24) (hlow : -149 ≤ e) (hmax : e ≤ 104)
    (hshape : 2 ^ 23 ≤ m ∨ e = -149) :
    singleValue? ⟨Float32.Model.pack (.finite s m e hm)⟩ = some (signedBy s (m * 2 ^ e)) := by
  have hunpack : (Float32.Model.pack (.finite s m e hm)).unpack = .finite s m e hm :=
    unpack_pack_single hhigh hlow hmax hshape
  rw [singleValue?, hunpack]

/-- The mantissa is shifted up until it is full or the exponent is least. -/
lemma exists_single_shift (s : Sign) (hm : 0 < m) (hhigh : m < 2 ^ 24) (hlow : -149 ≤ e)
    (hmax : e ≤ 104) : ∃ y, singleValue? y = some (signedBy s (m * 2 ^ e)) := by
  obtain ⟨j, hfull, hleast, hone⟩ : ∃ j : ℕ, m.log2 + j ≤ 23 ∧ j ≤ e + 149 ∧
      (m.log2 + j = 23 ∨ e - j = -149) := by
    have := (Nat.log2_lt hm.ne').mpr hhigh
    exact ⟨min (23 - m.log2) (e + 149).toNat, by omega, by omega, by omega⟩
  have hpos : 0 < m <<< j := by
    rw [Nat.shiftLeft_eq]
    exact Nat.mul_pos hm (Nat.two_pow_pos j)
  have hlog := log2_shift hm.ne' j
  refine ⟨⟨Float32.Model.pack (.finite s (m <<< j) (e - j) hpos)⟩, ?_⟩
  rw [singleValue?_pack hpos, mul_zpow_shift]
  · exact (Nat.log2_lt hpos.ne').mp (by omega)
  · omega
  · omega
  · rw [← Nat.le_log2 hpos.ne']
    omega

lemma exists_single_iff : (∃ y, singleValue? y = some q) ↔ FitsSingle q := by
  constructor
  · rintro ⟨y, hy⟩
    unfold singleValue? at hy
    split at hy
    next =>
      obtain rfl := Option.some.inj hy
      exact fitsSingle_zero
    next s m e hm hunpack =>
      obtain rfl := Option.some.inj hy
      obtain ⟨hhigh, hlow, hmax⟩ := unpack_single hunpack
      rw [fitsSingle_signedBy]
      exact ⟨m, e, by simpa using (by exact_mod_cast hhigh : (m : ℤ) < 2 ^ 24), hlow, hmax, rfl⟩
    next => cases hy
  · rintro ⟨k, e, hk, hlow, hmax, rfl⟩
    have hhigh : k.natAbs < 2 ^ 24 := by
      rw [Int.abs_eq_natAbs] at hk
      exact_mod_cast hk
    rcases lt_trichotomy k 0 with hsign | rfl | hsign
    · have hvalue : (k : ℚ) = -k.natAbs := by
        rw [Nat.cast_natAbs, abs_of_neg hsign]
        simp
      rw [hvalue, neg_mul]
      exact exists_single_shift .negative (by omega) hhigh hlow hmax
    · exact ⟨_, by simpa using singleValue?_pack_zero .positive⟩
    · have hvalue : (k : ℚ) = k.natAbs := by rw [Nat.cast_natAbs, abs_of_pos hsign]
      rw [hvalue]
      exact exists_single_shift .positive (by omega) hhigh hlow hmax

lemma targetExponent_single (m : ℕ) (e : ℤ) :
    Format.binary32.targetExponent (totalExponent m e) = max (e + m.log2 - 23) (-149) := by
  have hmantissa : (Format.binary32.mantissaBits : ℤ) = 24 := rfl
  have hmin : Format.binary32.minExponent = -149 := rfl
  rw [Format.targetExponent, totalExponent, hmantissa, hmin]
  congr 1
  omega

/-- Rounding keeps a number whose last bit is not below the unit at its magnitude. -/
lemma roundWithAccuracy_single {n k : ℕ} {g : ℤ} (hn : 0 < n) (hm : m = n * 2 ^ k) (hg : g = e + k)
    (htarget : g = max (e + m.log2 - 23) (-149)) :
    roundWithAccuracy .binary32 s m e .exact = .finite s n g hn := by
  have hlog : m.log2 = n.log2 + k := by rw [hm, ← Nat.shiftLeft_eq, log2_shift hn.ne']
  have hfirst : shiftToTargetExponent .binary32 m e .exact =
      (ExtendedMantissa.ofMantissaAndAccuracy m .exact >>> k, g) := by
    have hshift : (Format.binary32.targetExponent (totalExponent m e) - e).toNat = k := by
      rw [targetExponent_single]
      omega
    rw [shiftToTargetExponent, shiftToExponent, hshift, hg]
  have hrounded : (ExtendedMantissa.ofMantissaAndAccuracy m .exact >>> k).roundedMantissa = n := by
    have hlocates : Locates m (m : ℚ) .exact := rfl
    have hclose := (hlocates.ofMantissaAndAccuracy.shiftRight k).roundedMantissa
    have hquotient : (m : ℚ) / 2 ^ k = n := by
      rw [hm]
      push_cast
      exact mul_div_cancel_right₀ _ (by positivity)
    rw [hquotient] at hclose
    generalize (ExtendedMantissa.ofMantissaAndAccuracy m .exact >>> k).roundedMantissa = r at hclose
    exact Int.natCast_inj.mp (eq_of_abs_sub_le_half hclose)
  have hsecond : shiftToTargetExponent .binary32 n g .exact = (⟨n, false, false⟩, g) := by
    have hshift : (Format.binary32.targetExponent (totalExponent n g) - g).toNat = 0 := by
      rw [targetExponent_single]
      omega
    rw [shiftToTargetExponent, shiftToExponent, hshift, Nat.cast_zero, add_zero]
    rfl
  simp only [roundWithAccuracy, hfirst, hrounded, hsecond, hn.ne', dite_false]

/-- At the smaller exponent of the two, the mantissa is a multiple of the unit. -/
lemma exists_shift_eq {g i : ℤ} {j k : ℕ} (hm : 0 < m) (hi : (m : ℚ) * 2 ^ e = i * 2 ^ g)
    (hk : g = e - j + k) : ∃ n : ℕ, 0 < n ∧ i = n ∧ m <<< j = n * 2 ^ k := by
  have hmultiple : ((m <<< j : ℕ) : ℤ) = i * 2 ^ k := by
    have hscaled : ((m <<< j : ℕ) : ℚ) * 2 ^ (e - j) = (i * 2 ^ k : ℤ) * 2 ^ (e - j) := by
      rw [mul_zpow_shift, hi, zpow_of_le i (by omega : e - j ≤ g), show (g - (e - j)).toNat = k by omega]
    have hequal := mul_right_cancel₀ (two_zpow_pos _).ne' hscaled
    rwa [← Int.cast_natCast, Int.cast_inj] at hequal
  have hpos : 0 < i := by
    have hshift : (0 : ℤ) < (m <<< j : ℕ) := by exact_mod_cast Nat.shiftLeft_pos_iff.mpr hm
    rw [hmultiple] at hshift
    exact pos_of_mul_pos_left hshift (by positivity)
  obtain ⟨n, rfl⟩ := Int.eq_ofNat_of_zero_le hpos.le
  exact ⟨n, by exact_mod_cast hpos, rfl, by exact_mod_cast hmultiple⟩

lemma singleValue?_round (hm : 0 < m) (h : FitsSingle (m * 2 ^ e)) :
    singleValue? ⟨Float32.Model.pack (UnpackedFloat.round .binary32 s m e)⟩ =
      some (signedBy s (m * 2 ^ e)) := by
  obtain ⟨htop, i, hi⟩ := (fitsSingle_iff hm.ne').mp h
  generalize htarget : max (e + m.log2 - 23) (-149) = g at hi
  obtain ⟨j, hj⟩ : ∃ j : ℕ, (e - g).toNat = j := ⟨_, rfl⟩
  obtain ⟨k, hk⟩ : ∃ k : ℕ, g = e - j + k := ⟨(g - (e - j)).toNat, by omega⟩
  obtain ⟨n, hn, rfl, hshift⟩ := exists_shift_eq hm hi hk
  have hlog := log2_shift hm.ne' j
  have hlog' : (m <<< j).log2 = n.log2 + k := by rw [hshift, ← Nat.shiftLeft_eq, log2_shift hn.ne']
  rw [UnpackedFloat.round, targetExponent_single, htarget, decreaseExponent, hj]
  dsimp only
  rw [roundWithAccuracy_single hn hshift hk (by omega), hi, Int.cast_natCast]
  refine singleValue?_pack hn ?_ (by omega) (by omega) ?_
  · exact (Nat.log2_lt hn.ne').mp (by omega)
  · rw [← Nat.le_log2 hn.ne']
    omega

end Format

section Conversion

variable {x : Float} {y : Float32} {q : ℚ}

lemma FitsSingle.representable (h : FitsSingle q) : Representable q := by
  obtain ⟨k, e, hk, hlow, -, rfl⟩ := h
  exact ⟨k, e, by omega, by omega, rfl⟩

lemma FitsSingle.abs_le_greatest (h : FitsSingle q) : |q| ≤ greatest := by
  obtain ⟨k, e, hk, -, hhigh, rfl⟩ := h
  apply le_greatest
  have hk' : |(k : ℚ)| ≤ 2 ^ 24 := by exact_mod_cast hk.le
  have hpower : (2 : ℚ) ^ e ≤ 2 ^ (104 : ℤ) := zpow_le_zpow_right₀ one_le_two hhigh
  calc |(k : ℚ) * 2 ^ e| = |(k : ℚ)| * 2 ^ e := by rw [abs_mul, abs_of_pos (two_zpow_pos e)]
    _ ≤ 2 ^ 24 * 2 ^ (104 : ℤ) := mul_le_mul hk' hpower (two_zpow_pos e).le (by positivity)
    _ ≤ 2 ^ 200 := by norm_num

lemma singleValue?_toSingle (hx : value? x = some q) (h : FitsSingle q) :
    singleValue? (toSingle x) = some q := by
  change singleValue? ⟨Float32.Model.pack (toFormat .binary32 x.toModel.unpack)⟩ = _
  rcases value?_cases hx with ⟨s, hs, rfl⟩ | ⟨s, m, e, hm, hs, -, -, rfl⟩ <;> rw [hs]
  · exact singleValue?_pack_zero s
  · exact singleValue?_round hm ((fitsSingle_signedBy s).mp h)

lemma value?_ofSingle (hy : singleValue? y = some q) : value? (ofSingle y) = some q := by
  have hfits := exists_single_iff.mp ⟨y, hy⟩
  have hrounds : Rounds q (toFormat .binary64 y.toModel.unpack) := by
    unfold singleValue? at hy
    split at hy
    next s hunpack =>
      obtain rfl := Option.some.inj hy
      rw [hunpack]
      exact .of_representable .zero
    next s m e hm hunpack =>
      obtain rfl := Option.some.inj hy
      rw [hunpack]
      exact rounds_round s hm.ne' e
    next => cases hy
  exact hrounds.pack.exact hfits.representable hfits.abs_le_greatest

lemma singleValue?_of_ofSingle (hy : value? (ofSingle y) = some q) : singleValue? y = some q := by
  cases h : singleValue? y with
  | some p => rw [← hy, value?_ofSingle h]
  | none =>
    change value? ⟨Float.Model.pack (toFormat .binary64 y.toModel.unpack)⟩ = _ at hy
    unfold singleValue? at h
    cases hunpack : y.toModel.unpack with
    | zero | finite =>
      rw [hunpack] at h
      cases h
    | notANumber =>
      rw [hunpack] at hy
      cases hy
    | infinity s =>
      rw [hunpack] at hy
      cases s <;> cases hy

lemma beq_ofSingle_iff (hx : value? x = some q) :
    (x == ofSingle (toSingle x)) = true ↔ ∃ y, singleValue? y = some q := by
  constructor
  · intro h
    exact ⟨_, singleValue?_of_ofSingle (value?_of_beq hx h)⟩
  · intro h
    have hsingle := singleValue?_toSingle hx (exists_single_iff.mp h)
    exact (beq_iff hx (value?_ofSingle hsingle)).mpr rfl

end Conversion

end TensorSchema.Double
