import Mathlib
import TensorSchema.Proofs.Double.Nearest

/-! Sums, differences, products and quotients of doubles are nearest to those of the numbers. -/

namespace TensorSchema.Double

open Float.Model Float.Model.UnpackedFloat

section Operations

variable {x y : Float} {p q : ℚ}

lemma Canonical.representable {m : ℕ} {e : ℤ} (h : Canonical m e) (s : Sign) :
    Representable (signedBy s (m * 2 ^ e)) := by
  have hm : Representable (m * 2 ^ e) := by
    refine ⟨m, e, ?_, h.2.1, rfl⟩
    rw [Nat.abs_cast]
    exact_mod_cast h.1.le
  cases s with
  | negative => exact hm.neg
  | positive => exact hm

lemma Canonical.rounds {s : Sign} {m : ℕ} {e : ℤ} (h : Canonical m e) (hm : 0 < m) :
    Rounds (signedBy s (m * 2 ^ e)) (.finite s m e hm) :=
  ⟨h, .of_representable (h.representable s)⟩

lemma aligned_eq (s : Sign) (m : ℕ) {e f : ℤ} (h : f ≤ e) :
    ((s.apply (decreaseExponent m e f).1 : ℤ) : ℚ) * 2 ^ f = signedBy s (m * 2 ^ e) := by
  have hshift : e - (e - f).toNat = f := by omega
  rw [← mul_zpow_shift m (e - f).toNat e, hshift, decreaseExponent]
  generalize m <<< (e - f).toNat = n
  cases s <;> simp [Sign.apply, signedBy]

lemma rounds_add (hx : value? x = some p) (hy : value? y = some q) :
    Rounds (p + q) (UnpackedFloat.add .binary64 x.toModel.unpack y.toModel.unpack) := by
  rcases value?_cases hx with ⟨s, hs, rfl⟩ | ⟨s, m, e, hm, hs, hcm, -, rfl⟩ <;>
    rcases value?_cases hy with ⟨t, ht, rfl⟩ | ⟨t, n, f, hn, ht, hcn, -, rfl⟩ <;> rw [hs, ht]
  · rw [add_zero, UnpackedFloat.add]
    split <;> exact .of_representable .zero
  · rw [zero_add]
    exact hcn.rounds hn
  · rw [add_zero]
    exact hcm.rounds hm
  · rw [← aligned_eq s m (min_le_left e f), ← aligned_eq t n (min_le_right e f), ← add_mul, ← Int.cast_add]
    exact rounds_normalize _ _ _

lemma rounds_sub (hx : value? x = some p) (hy : value? y = some q) :
    Rounds (p - q) (UnpackedFloat.sub .binary64 x.toModel.unpack y.toModel.unpack) := by
  rcases value?_cases hx with ⟨s, hs, rfl⟩ | ⟨s, m, e, hm, hs, hcm, -, rfl⟩ <;>
    rcases value?_cases hy with ⟨t, ht, rfl⟩ | ⟨t, n, f, hn, ht, hcn, -, rfl⟩ <;> rw [hs, ht]
  · rw [sub_zero, UnpackedFloat.sub]
    split <;> exact .of_representable .zero
  · rw [zero_sub]
    cases t with
    | negative =>
      rw [signedBy, neg_neg]
      exact hcn.rounds (s := .positive) hn
    | positive => exact hcn.rounds hn
  · rw [sub_zero]
    exact hcm.rounds hm
  · rw [← aligned_eq s m (min_le_left e f), ← aligned_eq t n (min_le_right e f), ← sub_mul, ← Int.cast_sub]
    exact rounds_normalize _ _ _

lemma signedBy_mul (s t : Sign) (p q : ℚ) : signedBy s p * signedBy t q = signedBy (s * t) (p * q) := by
  cases s <;> cases t
  · exact neg_mul_neg p q
  · exact neg_mul p q
  · exact mul_neg p q
  · rfl

lemma signedBy_div (s t : Sign) (p q : ℚ) : signedBy s p / signedBy t q = signedBy (s / t) (p / q) := by
  cases s <;> cases t
  · exact neg_div_neg_eq p q
  · exact neg_div q p
  · exact div_neg p
  · rfl

lemma rounds_mul (hx : value? x = some p) (hy : value? y = some q) :
    Rounds (p * q) (UnpackedFloat.mul .binary64 x.toModel.unpack y.toModel.unpack) := by
  rcases value?_cases hx with ⟨s, hs, rfl⟩ | ⟨s, m, e, hm, hs, hcm, -, rfl⟩ <;>
    rcases value?_cases hy with ⟨t, ht, rfl⟩ | ⟨t, n, f, hn, ht, hcn, -, rfl⟩ <;> rw [hs, ht]
  · rw [mul_zero]
    exact .of_representable .zero
  · rw [zero_mul]
    exact .of_representable .zero
  · rw [mul_zero]
    exact .of_representable .zero
  · have hvalue : (m * 2 ^ e : ℚ) * (n * 2 ^ f) = (m * n : ℕ) * 2 ^ (e + f) := by
      rw [zpow_add₀ two_ne_zero]
      push_cast
      ring
    rw [signedBy_mul, hvalue]
    refine rounds_roundWithAccuracy _ (t := (m * n : ℕ)) rfl ?_
    by_cases hlog : 52 ≤ (m * n).log2
    · omega
    · rw [Nat.le_log2 (Nat.mul_pos hm hn).ne'] at hlog
      have hm' := Nat.le_mul_of_pos_right m hn
      have hn' := Nat.le_mul_of_pos_left n hm
      have he := hcm.2.2.resolve_left (by omega)
      have hf := hcn.2.2.resolve_left (by omega)
      omega

lemma locates_fraction (m : ℕ) {n : ℕ} (hn : 0 < n) :
    Locates (m / n) (m / n) (accuracyOfFraction (m % n) n) := by
  have hpos : (0 : ℚ) < n := by exact_mod_cast hn
  have hsplit : (m : ℚ) / n = (m / n : ℕ) + (m % n : ℕ) / n := by
    rw [add_div' _ _ _ hpos.ne']
    congr 1
    exact_mod_cast (Nat.div_add_mod' m n).symm
  have hlt : ((m % n : ℕ) : ℚ) / n < 1 := by
    rw [div_lt_one hpos]
    exact_mod_cast Nat.mod_lt m hn
  rw [hsplit, accuracyOfFraction]
  generalize m / n = k at *
  generalize m % n = r at *
  split
  next hzero => simp [Locates, hzero]
  next hzero =>
    have hr : (0 : ℚ) < r / n := div_pos (by exact_mod_cast Nat.pos_of_ne_zero hzero) hpos
    rcases lt_trichotomy (2 * r) n with h | h | h
    · have hhalf : (r : ℚ) / n < 1 / 2 := by
        rw [div_lt_div_iff₀ hpos two_pos]
        exact_mod_cast (by omega : r * 2 < 1 * n)
      rw [Nat.compare_eq_lt.mpr h]
      exact ⟨by linarith, by linarith⟩
    · have hhalf : (r : ℚ) / n = 1 / 2 := by
        rw [div_eq_div_iff hpos.ne' two_ne_zero]
        exact_mod_cast (by omega : r * 2 = 1 * n)
      rw [Nat.compare_eq_eq.mpr h, hhalf]
      rfl
    · have hhalf : 1 / 2 < (r : ℚ) / n := by
        rw [div_lt_div_iff₀ two_pos hpos]
        exact_mod_cast (by omega : 1 * n < r * 2)
      rw [Nat.compare_eq_gt.mpr h]
      exact ⟨by linarith, by linarith⟩

lemma rounds_div (hx : value? x = some p) (hy : value? y = some q) (hq : q ≠ 0) :
    Rounds (p / q) (UnpackedFloat.div .binary64 x.toModel.unpack y.toModel.unpack) := by
  rcases value?_cases hy with ⟨t, ht, rfl⟩ | ⟨t, n, f, hn, ht, hcn, -, rfl⟩
  · exact (hq rfl).elim
  · rcases value?_cases hx with ⟨s, hs, rfl⟩ | ⟨s, m, e, hm, hs, hcm, -, rfl⟩ <;> rw [hs, ht]
    · rw [zero_div]
      exact .of_representable .zero
    · have htarget : Format.binary64.targetExponent (totalExponent m e - totalExponent n f) =
          max (m.log2 + e - n.log2 - f - 53) (-1074) := by
        have hmantissa : (Format.binary64.mantissaBits : ℤ) = 53 := rfl
        have hmin : Format.binary64.minExponent = -1074 := rfl
        rw [Format.targetExponent, totalExponent, totalExponent, hmantissa, hmin]
        congr 1
        omega
      rw [signedBy_div]
      simp only [UnpackedFloat.div, divCore, htarget]
      generalize hg : min (e - f) (max (m.log2 + e - n.log2 - f - 53 : ℤ) (-1074)) = g
      generalize hk : (e - f - g).toNat = k
      have hvalue : (m * 2 ^ e : ℚ) / (n * 2 ^ f) = (m <<< k : ℕ) / n * 2 ^ g := by
        have hshift := mul_zpow_shift m k (e - f)
        rw [show e - f - k = g by omega, zpow_sub₀ two_ne_zero] at hshift
        rw [div_mul_eq_mul_div, hshift]
        field_simp
      rw [hvalue]
      refine rounds_roundWithAccuracy _ (locates_fraction _ hn) ?_
      by_cases hmin : g ≤ -1074
      · omega
      · -- the quotient has at least 53 bits
        have hbits : 2 ^ 52 ≤ (m <<< k) / n := by
          rw [Nat.le_div_iff_mul_le hn]
          calc 2 ^ 52 * n ≤ 2 ^ 52 * 2 ^ (n.log2 + 1) := Nat.mul_le_mul_left _ Nat.lt_log2_self.le
            _ = 2 ^ (52 + (n.log2 + 1)) := (pow_add ..).symm
            _ ≤ 2 ^ (m.log2 + k) := Nat.pow_le_pow_right two_pos (by omega)
            _ = 2 ^ (m <<< k).log2 := by rw [log2_shift hm.ne']
            _ ≤ m <<< k := Nat.log2_self_le (by simp [hm.ne'])
        have hlog := (Nat.le_log2 (by omega)).mpr hbits
        omega

end Operations

def greatest : ℚ := (2 ^ 53 - 1) * 2 ^ (971 : ℤ)

lemma greatest_pos : 0 < greatest := mul_pos (by norm_num) (two_zpow_pos 971)

lemma representable_greatest : Representable greatest :=
  ⟨2 ^ 53 - 1, 971, by norm_num, by norm_num, by rw [greatest, Int.cast_sub, Int.cast_pow]; rfl⟩

def Rounded (q : ℚ) (z : Float) : Prop :=
  (∃ r, value? z = some r ∧ Nearest q r) ∨ parts z = .infinite (q < 0) ∧ greatest < |q|

section Packed

variable {x y z : Float} {p q : ℚ}

lemma Canonical.overflow {m : ℕ} {e : ℤ} (h : Canonical m e) (he : 971 < e)
    (hnearest : Nearest q (m * 2 ^ e)) : greatest < q := by
  by_contra hq
  have hbound := hnearest.le representable_greatest (not_lt.mp hq)
  have hnormal : (2 : ℚ) ^ 52 ≤ m := by exact_mod_cast h.2.2.resolve_right (by omega)
  have hlarge : greatest < m * 2 ^ e := by
    calc greatest < 2 ^ 53 * 2 ^ (971 : ℤ) := mul_lt_mul_of_pos_right (by norm_num) (two_zpow_pos 971)
      _ = 2 ^ 52 * 2 ^ (971 + 1 : ℤ) := by rw [zpow_add_one₀ two_ne_zero]; ring
      _ ≤ m * 2 ^ e := by
          have : (2 : ℚ) ^ (971 + 1 : ℤ) ≤ 2 ^ e := zpow_le_zpow_right₀ one_le_two (by omega)
          exact mul_le_mul hnormal this (two_zpow_pos _).le (by positivity)
  exact hbound.not_gt hlarge

lemma Rounds.pack {u : UnpackedFloat} (h : Rounds q u) : Rounded q ⟨Float.Model.pack u⟩ := by
  cases u with
  | infinity | notANumber => exact h.elim
  | zero s => exact Or.inl ⟨0, value?_pack_zero s, h⟩
  | finite s m e hm =>
    obtain ⟨hcanonical, hnearest⟩ := h
    by_cases he : e ≤ 971
    · exact Or.inl ⟨_, value?_pack hm hcanonical he, hnearest⟩
    · right
      rw [parts_pack_overflow hm (not_le.mp he)]
      cases s with
      | negative =>
        have hq := hcanonical.overflow (not_le.mp he) (q := -q) (by simpa [signedBy] using hnearest.neg)
        have hneg : q < 0 := neg_pos.mp (greatest_pos.trans hq)
        rw [abs_of_neg hneg, decide_eq_true hneg]
        exact ⟨rfl, hq⟩
      | positive =>
        have hq := hcanonical.overflow (not_le.mp he) hnearest
        have hpos : 0 < q := greatest_pos.trans hq
        rw [abs_of_pos hpos, decide_eq_false hpos.not_gt]
        exact ⟨rfl, hq⟩

lemma rounded_add (hx : value? x = some p) (hy : value? y = some q) : Rounded (p + q) (x + y) :=
  (rounds_add hx hy).pack

lemma rounded_sub (hx : value? x = some p) (hy : value? y = some q) : Rounded (p - q) (x - y) :=
  (rounds_sub hx hy).pack

lemma rounded_mul (hx : value? x = some p) (hy : value? y = some q) : Rounded (p * q) (x * y) :=
  (rounds_mul hx hy).pack

lemma rounded_div (hx : value? x = some p) (hy : value? y = some q) (hq : q ≠ 0) :
    Rounded (p / q) (x / y) :=
  (rounds_div hx hy hq).pack

lemma Rounded.finite (h : Rounded q z) (hq : |q| ≤ greatest) : ∃ r, value? z = some r ∧ Nearest q r :=
  h.resolve_right fun hinfinite => hq.not_gt hinfinite.2

lemma Rounded.exact (h : Rounded q z) (hq : Representable q) (hmax : |q| ≤ greatest) :
    value? z = some q := by
  obtain ⟨r, hz, hr⟩ := h.finite hmax
  rw [hz, hr.eq hq]

lemma representable_of_value? (hx : value? x = some q) : Representable q := by
  rcases value?_cases hx with ⟨s, -, rfl⟩ | ⟨s, m, e, -, -, hcanonical, -, rfl⟩
  · exact .zero
  · exact hcanonical.representable s

lemma abs_le_greatest (hx : value? x = some q) : |q| ≤ greatest := by
  obtain ⟨negative, m, e, hparts, rfl⟩ := parts_of_value? hx
  obtain ⟨hcanonical, he⟩ := canonical_of_parts hparts
  have hm : (m : ℚ) ≤ 2 ^ 53 - 1 := by
    have : m + 1 ≤ 2 ^ 53 := hcanonical.1
    rw [le_sub_iff_add_le]
    exact_mod_cast this
  have hsign : |(signed negative m : ℚ)| = m := by cases negative <;> simp [signed]
  rw [abs_mul, hsign, abs_of_pos (two_zpow_pos e)]
  exact mul_le_mul hm (zpow_le_zpow_right₀ one_le_two he) (two_zpow_pos e).le (by norm_num)

end Packed

end TensorSchema.Double
