import Mathlib
import TensorSchema.Proofs.Double.Shortest

/-! The rational number that a finite double stands for. The order of doubles, the sign and the absolute
value are those of the numbers. -/

namespace TensorSchema.Double

open Float.Model Float.Model.UnpackedFloat

def isNegative : Sign → Bool
  | .negative => true
  | .positive => false

def partsOf : UnpackedFloat → Parts
  | .notANumber => .nan
  | .infinity s => .infinite (isNegative s)
  | .zero s => .finite (isNegative s) 0 (-1074)
  | .finite s m e _ => .finite (isNegative s) m e

def partsOfFields (negative : Bool) (scale fraction : ℕ) : Parts :=
  if scale = 2047 then
    if fraction = 0 then .infinite negative else .nan
  else if scale = 0 then .finite negative fraction (-1074)
  else .finite negative (0x10000000000000 + fraction) (scale - 1075)

lemma toNat_one_append {w : ℕ} (v : BitVec w) : (1#1 ++ v).toNat = 2 ^ w + v.toNat := by
  rw [BitVec.toNat_append, ← Nat.shiftLeft_add_eq_or_of_lt v.isLt]
  simp [Nat.one_shiftLeft]

lemma partsOf_unpack (b : BitVec 64) : partsOf (UnpackedFloat.unpack .binary64 b) =
    partsOfFields (isNegative (Sign.ofBitVec (@unpackSign .binary64 b)))
      (@unpackExponent .binary64 b).toNat (@unpackMantissa .binary64 b).toNat := by
  have htop : (@unpackExponent .binary64 b).toNat = 2047 ↔ @unpackExponent .binary64 b = -1#11 :=
    BitVec.toNat_inj (y := -1#11)
  have hbottom : (@unpackExponent .binary64 b).toNat = 0 ↔ @unpackExponent .binary64 b = 0#11 :=
    BitVec.toNat_inj (y := 0#11)
  have hzero : (@unpackMantissa .binary64 b).toNat = 0 ↔ @unpackMantissa .binary64 b = 0#52 :=
    BitVec.toNat_inj (y := 0#52)
  simp only [partsOfFields, UnpackedFloat.unpack, htop, hbottom, hzero]
  split
  · split <;> rfl
  · split
    next h =>
      split
      next hnone =>
        rw [hnone]
        rfl
      next =>
        rw [h]
        rfl
    next =>
      rw [partsOf, toNat_one_append]
      rfl

lemma fraction_eq (x : Float) : (x.toBits &&& 0xfffffffffffff).toNat =
    (@unpackMantissa .binary64 x.toModel.toBits.toBitVec).toNat := by
  change (x.toModel.toBits &&& 0xfffffffffffff).toNat = _
  rw [unpackMantissa]
  simp only [UInt64.toNat_and, BitVec.toNat_cast, BitVec.extractLsb_toNat, UInt64.toNat_toBitVec]
  exact Nat.and_two_pow_sub_one_eq_mod _ 52

lemma toNat_unpackSign (x : Float) :
    (@unpackSign .binary64 x.toModel.toBits.toBitVec).toNat = (x.toBits >>> 63).toNat := by
  change _ = x.toModel.toBits.toNat >>> 63
  have hlt := x.toModel.toBits.toNat_lt
  rw [unpackSign, BitVec.toNat_cast, BitVec.extractLsb_toNat, UInt64.toNat_toBitVec]
  norm_num [Nat.shiftRight_eq_div_pow]
  omega

lemma negative_eq (x : Float) : (x.toBits >>> 63 == 1) =
    isNegative (Sign.ofBitVec (@unpackSign .binary64 x.toModel.toBits.toBitVec)) := by
  have hsign := toNat_unpackSign x
  rcases BitVec.eq_zero_or_eq_one (@unpackSign .binary64 x.toModel.toBits.toBitVec) with h | h
  · rw [h] at hsign ⊢
    rw [show x.toBits >>> 63 = 0 from UInt64.toNat_inj.mp hsign.symm]
    rfl
  · rw [h] at hsign ⊢
    rw [show x.toBits >>> 63 = 1 from UInt64.toNat_inj.mp hsign.symm]
    rfl

lemma parts_eq (x : Float) : parts x = partsOf x.toModel.unpack := by
  rw [Float.Model.unpack, partsOf_unpack, ← scale_eq, ← fraction_eq, ← negative_eq]
  rfl

/-- The mantissas and exponents that doubles have, but for the greatest exponent. -/
def Canonical (m : ℕ) (e : ℤ) : Prop := m < 2 ^ 53 ∧ -1074 ≤ e ∧ (2 ^ 52 ≤ m ∨ e = -1074)

section

variable {x : Float} {negative : Bool} {s : Sign} {m : ℕ} {e : ℤ}

lemma canonical_of_parts (h : parts x = .finite negative m e) : Canonical m e ∧ e ≤ 971 := by
  have hfraction : (x.toBits &&& 0xfffffffffffff).toNat < 2 ^ 52 := by
    rw [fraction_eq]
    exact BitVec.isLt _
  have hscale : (x.toBits >>> 52 &&& 0x7ff).toNat < 2 ^ 11 := by
    rw [scale_eq]
    exact BitVec.isLt _
  change partsOfFields _ _ _ = _ at h
  rw [partsOfFields] at h
  unfold Canonical
  split at h
  · split at h <;> cases h
  · split at h
    · cases h
      omega
    · cases h
      omega

lemma ofBitVec_unpackSign {spec : Format} (exponent : BitVec spec.exponentBits)
    (mantissa : BitVec spec.mantissaBitsWithoutImplicit) :
    Sign.ofBitVec (unpackSign (packComponents spec s exponent mantissa)) = s := by
  have hsign : unpackSign (packComponents spec s exponent mantissa) = s.toBitVec := by
    ext i hi
    obtain rfl : i = 0 := by omega
    simp [unpackSign, packComponents, BitVec.getLsbD_append, BitVec.getElem_append]
  rw [hsign]
  cases s <;> rfl

lemma parts_components {u : UnpackedFloat} {exponent : BitVec 11} {mantissa : BitVec 52}
    (h : UnpackedFloat.pack .binary64 u = packComponents .binary64 s exponent mantissa) :
    parts ⟨Float.Model.pack u⟩ = partsOfFields (isNegative s) exponent.toNat mantissa.toNat := by
  rw [parts_eq]
  change partsOf (UnpackedFloat.unpack .binary64 (UnpackedFloat.pack .binary64 u)) = _
  rw [h, partsOf_unpack, ofBitVec_unpackSign, unpackExponent_packComponents,
    unpackMantissa_packComponents]

lemma parts_pack_zero (s : Sign) :
    parts ⟨Float.Model.pack (.zero s)⟩ = .finite (isNegative s) 0 (-1074) := by
  cases s <;> rfl

lemma parts_pack_overflow (hm : 0 < m) (he : 971 < e) :
    parts ⟨Float.Model.pack (.finite s m e hm)⟩ = .infinite (isNegative s) := by
  have hlarge : 2 ^ 11 ≤ (e + 1023 + 52).toNat + 1 := by omega
  have hpack : UnpackedFloat.pack .binary64 (.finite s m e hm) =
      packComponents .binary64 s (-1#11) 0#52 := if_pos hlarge
  rw [parts_components hpack]
  rfl

lemma parts_pack_finite (hm : 0 < m) (h : Canonical m e) (he : e ≤ 971) :
    parts ⟨Float.Model.pack (.finite s m e hm)⟩ = .finite (isNegative s) m e := by
  obtain ⟨hhigh, hlow, hshape⟩ := h
  have hsmall : ¬ 2 ^ 11 ≤ (e + 1023 + 52).toNat + 1 := by omega
  by_cases hnormal : 2 ^ 52 ≤ m
  · have hlog : m.log2 + 1 = 53 :=
      congrArg (· + 1) ((Nat.log2_eq_iff hm.ne').mpr ⟨hnormal, hhigh⟩)
    have hpack : UnpackedFloat.pack .binary64 (.finite s m e hm) =
        packComponents .binary64 s (BitVec.ofNat 11 (e + 1023 + 52).toNat) (BitVec.ofNat 52 m) :=
      (if_neg hsmall).trans (if_pos hlog)
    rw [parts_components hpack, partsOfFields, BitVec.toNat_ofNat, BitVec.toNat_ofNat,
      if_neg (by omega), if_neg (by omega)]
    congr 1 <;> omega
  · have hlog : ¬ m.log2 + 1 = 53 := by
      have := (Nat.log2_lt hm.ne').mpr (not_le.mp hnormal)
      omega
    have hpack : UnpackedFloat.pack .binary64 (.finite s m e hm) =
        packComponents .binary64 s 0#11 (BitVec.ofNat 52 m) := (if_neg hsmall).trans (if_neg hlog)
    rw [parts_components hpack, BitVec.toNat_ofNat, BitVec.toNat_ofNat,
      Nat.mod_eq_of_lt (not_le.mp hnormal), hshape.resolve_left hnormal]
    rfl

end

def value? (x : Float) : Option ℚ :=
  match parts x with
  | .finite negative m e => some (signed negative m * 2 ^ e)
  | _ => none

section

variable {x y : Float} {p q : ℚ}

lemma value?_of_parts {negative : Bool} {m : ℕ} {e : ℤ} (h : parts x = .finite negative m e) :
    value? x = some ((signed negative m : ℚ) * 2 ^ e) := by
  rw [value?, h]

lemma value?_of_isFinite (h : x.isFinite = true) : ∃ q, value? x = some q := by
  obtain ⟨negative, m, e, hparts⟩ := parts_of_isFinite h
  exact ⟨_, value?_of_parts hparts⟩

lemma parts_of_value? (h : value? x = some q) :
    ∃ negative m e, parts x = .finite negative m e ∧ q = signed negative m * 2 ^ e := by
  unfold value? at h
  split at h
  next negative m e hparts => exact ⟨negative, m, e, hparts, (Option.some.inj h).symm⟩
  next => cases h

def signedBy : Sign → ℚ → ℚ
  | .negative, q => -q
  | .positive, q => q

lemma signed_isNegative (s : Sign) (m : ℕ) (e : ℤ) :
    (signed (isNegative s) m : ℚ) * 2 ^ e = signedBy s (m * 2 ^ e) := by
  cases s <;> simp [isNegative, signed, signedBy]

lemma value?_cases (h : value? x = some q) :
    (∃ s, x.toModel.unpack = .zero s ∧ q = 0) ∨
      ∃ s m e hm, x.toModel.unpack = .finite s m e hm ∧ Canonical m e ∧ e ≤ 971 ∧
        q = signedBy s (m * 2 ^ e) := by
  obtain ⟨negative, m, e, hparts, rfl⟩ := parts_of_value? h
  obtain ⟨hcanonical, hmax⟩ := canonical_of_parts hparts
  rw [parts_eq] at hparts
  cases hx : x.toModel.unpack with
  | notANumber | infinity s =>
    rw [hx] at hparts
    cases hparts
  | zero s =>
    rw [hx] at hparts
    cases hparts
    left
    exact ⟨s, rfl, by cases s <;> simp [isNegative, signed]⟩
  | finite s m e hm =>
    rw [hx] at hparts
    cases hparts
    right
    exact ⟨s, _, _, hm, rfl, hcanonical, hmax, by rw [signed_isNegative]⟩

lemma isFinite_of_value? (h : value? x = some q) : x.isFinite = true := by
  change x.toModel.unpack.isFinite = true
  rcases value?_cases h with ⟨s, hs, -⟩ | ⟨s, m, e, hm, hs, -⟩ <;> rw [hs] <;> rfl

lemma isNaN_of_value? (h : value? x = some q) : x.isNaN = false := by
  change x.toModel.unpack.isNaN = false
  rcases value?_cases h with ⟨s, hs, -⟩ | ⟨s, m, e, hm, hs, -⟩ <;> rw [hs] <;> rfl

lemma two_zpow_pos (e : ℤ) : (0 : ℚ) < 2 ^ e := zpow_pos two_pos e

lemma Canonical.lt_of_exponent_lt {m n : ℕ} {e f : ℤ} (hm : Canonical m e) (hn : Canonical n f)
    (h : e < f) : (m : ℚ) * 2 ^ e < n * 2 ^ f := by
  have hnormal : 2 ^ 52 ≤ n := hn.2.2.resolve_right (by have := hm.2.1; omega)
  calc (m : ℚ) * 2 ^ e < 2 ^ 53 * 2 ^ e := by
        have : (m : ℚ) < 2 ^ 53 := by exact_mod_cast hm.1
        exact mul_lt_mul_of_pos_right this (two_zpow_pos e)
    _ = 2 ^ 52 * 2 ^ (e + 1) := by rw [zpow_add_one₀ two_ne_zero]; ring
    _ ≤ n * 2 ^ f := by
        have : (2 : ℚ) ^ 52 ≤ n := by exact_mod_cast hnormal
        have hpow : (2 : ℚ) ^ (e + 1) ≤ 2 ^ f := zpow_le_zpow_right₀ one_le_two h
        exact mul_le_mul this hpow (two_zpow_pos _).le (by positivity)

lemma Canonical.cmp_eq {m n : ℕ} {e f : ℤ} (hm : Canonical m e) (hn : Canonical n f) :
    (compare e f).then (compare m n) = cmp ((m : ℚ) * 2 ^ e) (n * 2 ^ f) := by
  rcases lt_trichotomy e f with h | rfl | h
  · rw [compare_lt_iff_lt.mpr h, (cmp_eq_lt_iff _ _).mpr (hm.lt_of_exponent_lt hn h)]
    rfl
  · rw [compare_eq_iff_eq.mpr rfl, cmp_mul_pos_right (two_zpow_pos e),
      (Nat.strictMono_cast (α := ℚ)).cmp_map_eq, cmp_eq_compare]
    rfl
  · rw [compare_gt_iff_gt.mpr h, (cmp_eq_gt_iff _ _).mpr (hn.lt_of_exponent_lt hm h)]
    rfl

lemma mul_zpow_pos {m : ℕ} (hm : 0 < m) (e : ℤ) : (0 : ℚ) < m * 2 ^ e :=
  mul_pos (by exact_mod_cast hm) (two_zpow_pos e)

lemma compare_unpack (hx : value? x = some p) (hy : value? y = some q) :
    x.toModel.unpack.compare y.toModel.unpack = some (cmp p q) := by
  rcases value?_cases hx with ⟨s, hs, rfl⟩ | ⟨s, m, e, hm, hs, hcm, -, rfl⟩ <;>
    rcases value?_cases hy with ⟨t, ht, rfl⟩ | ⟨t, n, f, hn, ht, hcn, -, rfl⟩ <;> rw [hs, ht]
  · rfl
  · have hpos := mul_zpow_pos hn f
    cases t with
    | negative => exact congrArg some ((cmp_eq_gt_iff _ _).mpr (neg_neg_of_pos hpos)).symm
    | positive => exact congrArg some ((cmp_eq_lt_iff _ _).mpr hpos).symm
  · have hpos := mul_zpow_pos hm e
    cases s with
    | negative => exact congrArg some ((cmp_eq_lt_iff _ _).mpr (neg_neg_of_pos hpos)).symm
    | positive => exact congrArg some ((cmp_eq_gt_iff _ _).mpr hpos).symm
  · have hpos := mul_zpow_pos hm e
    have hpos' := mul_zpow_pos hn f
    cases s <;> cases t <;> simp only [signedBy, UnpackedFloat.compare]
    · have hanti : StrictAnti fun q : ℚ => -q := fun _ _ => neg_lt_neg
      rw [hcm.cmp_eq hcn, cmp_swap, hanti.cmp_map_eq]
    · rw [(cmp_eq_lt_iff _ _).mpr ((neg_neg_of_pos hpos).trans hpos')]
    · rw [(cmp_eq_gt_iff _ _).mpr ((neg_neg_of_pos hpos').trans hpos)]
    · rw [hcm.cmp_eq hcn]

lemma lt_iff_compare : x < y ↔ x.toModel.unpack.compare y.toModel.unpack = some .lt := by
  have hlt : x < y ↔ (x.toModel.unpack.compare y.toModel.unpack == some .lt) = true :=
    decide_eq_true_iff
  rw [hlt, beq_iff_eq]

lemma le_iff_compare : x ≤ y ↔ (x.toModel.unpack.compare y.toModel.unpack).any (·.isLE) = true :=
  decide_eq_true_iff

lemma lt_iff (hx : value? x = some p) (hy : value? y = some q) : x < y ↔ p < q := by
  rw [lt_iff_compare, compare_unpack hx hy, ← cmp_eq_lt_iff, Option.some.injEq]

lemma le_iff (hx : value? x = some p) (hy : value? y = some q) : x ≤ y ↔ p ≤ q := by
  rw [le_iff_compare, compare_unpack hx hy, ← not_lt, ← cmp_eq_gt_iff]
  cases cmp p q <;> decide

lemma beq_iff_compare : (x == y) = true ↔ x.toModel.unpack.compare y.toModel.unpack = some .eq := by
  change (x.toModel.unpack.compare y.toModel.unpack == some .eq) = true ↔ _
  exact beq_iff_eq

lemma beq_iff (hx : value? x = some p) (hy : value? y = some q) : (x == y) = true ↔ p = q := by
  rw [beq_iff_compare, compare_unpack hx hy, Option.some.injEq, cmp_eq_eq_iff]

lemma value?_of_beq (hx : value? x = some p) (h : (x == y) = true) : value? y = some p := by
  have hfinite : y.isFinite = true := by
    rw [beq_iff_compare] at h
    change y.toModel.unpack.isFinite = true
    cases hy : y.toModel.unpack with
    | zero | finite => rfl
    | notANumber =>
      rcases value?_cases hx with ⟨s, hs, -⟩ | ⟨s, m, e, hm, hs, -⟩ <;> rw [hs, hy] at h <;> cases h
    | infinity t =>
      rcases value?_cases hx with ⟨s, hs, -⟩ | ⟨s, m, e, hm, hs, -⟩ <;> rw [hs, hy] at h <;>
        cases t <;> cases h
  obtain ⟨q, hq⟩ := value?_of_isFinite hfinite
  rw [hq, (beq_iff hx hq).mp h]

lemma value?_pack_zero (s : Sign) : value? ⟨Float.Model.pack (.zero s)⟩ = some 0 := by
  rw [value?_of_parts (parts_pack_zero s)]
  cases s <;> simp [isNegative, signed]

lemma value?_zero : value? 0 = some 0 := value?_pack_zero .positive

lemma value?_pack {s : Sign} {m : ℕ} {e : ℤ} (hm : 0 < m) (h : Canonical m e) (he : e ≤ 971) :
    value? ⟨Float.Model.pack (.finite s m e hm)⟩ = some (signedBy s (m * 2 ^ e)) := by
  rw [value?_of_parts (parts_pack_finite hm h he), signed_isNegative]

lemma value?_neg (hx : value? x = some p) : value? (-x) = some (-p) := by
  change value? ⟨Float.Model.pack x.toModel.unpack.neg⟩ = _
  rcases value?_cases hx with ⟨s, hs, rfl⟩ | ⟨s, m, e, hm, hs, hcanonical, hmax, rfl⟩
  · rw [hs, neg_zero]
    exact value?_pack_zero _
  · rw [hs]
    refine (value?_pack hm hcanonical hmax).trans ?_
    cases s with
    | negative => exact congrArg some (neg_neg _).symm
    | positive => rfl

lemma value?_abs (hx : value? x = some p) : value? x.abs = some |p| := by
  change value? ⟨Float.Model.pack x.toModel.unpack.abs⟩ = _
  rcases value?_cases hx with ⟨s, hs, rfl⟩ | ⟨s, m, e, hm, hs, hcanonical, hmax, rfl⟩
  · rw [hs, abs_zero]
    exact value?_pack_zero _
  · rw [hs]
    refine (value?_pack hm hcanonical hmax).trans ?_
    have hpos := mul_zpow_pos hm e
    cases s with
    | negative => exact congrArg some ((abs_neg _).trans (abs_of_pos hpos)).symm
    | positive => exact congrArg some (abs_of_pos hpos).symm

end

end TensorSchema.Double
