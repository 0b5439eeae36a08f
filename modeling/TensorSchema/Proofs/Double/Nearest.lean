import Mathlib
import TensorSchema.Proofs.Double.Value

/-! Rounding to the nearest double. A number is nearest to another if no representable number is nearer; the
rule for ties does not matter here. -/

namespace TensorSchema.Double

open Float.Model Float.Model.UnpackedFloat

/-- The numbers that doubles stand for, but for the greatest magnitude. -/
def Representable (q : ℚ) : Prop := ∃ k e : ℤ, |k| ≤ 2 ^ 53 ∧ -1074 ≤ e ∧ q = k * 2 ^ e

def Nearest (q r : ℚ) : Prop := Representable r ∧ ∀ s, Representable s → |r - q| ≤ |s - q|

variable {q r s : ℚ}

lemma Representable.neg (h : Representable q) : Representable (-q) := by
  obtain ⟨k, e, hk, he, rfl⟩ := h
  exact ⟨-k, e, by rwa [abs_neg], he, by push_cast; ring⟩

lemma Nearest.neg (h : Nearest q r) : Nearest (-q) (-r) := by
  refine ⟨h.1.neg, ?_⟩
  intro s hs
  calc |-r - -q| = |r - q| := by rw [neg_sub_neg, abs_sub_comm]
    _ ≤ |-s - q| := h.2 (-s) hs.neg
    _ = |s - -q| := by rw [← abs_neg, neg_sub, sub_neg_eq_add, sub_neg_eq_add, add_comm]

lemma Nearest.of_representable (h : Representable q) : Nearest q q :=
  ⟨h, fun s _ => by rw [sub_self, abs_zero]; exact abs_nonneg _⟩

lemma Nearest.eq (h : Nearest q r) (hq : Representable q) : r = q := by
  have := h.2 q hq
  rw [sub_self, abs_zero] at this
  exact sub_eq_zero.mp (abs_nonpos_iff.mp this)

lemma Nearest.le (h : Nearest q r) (hs : Representable s) (hqs : q ≤ s) : r ≤ s := by
  by_contra hlt
  have := h.2 s hs
  rw [abs_of_nonneg (sub_nonneg.mpr hqs), abs_of_nonneg (by linarith)] at this
  linarith

lemma Nearest.ge (h : Nearest q r) (hs : Representable s) (hsq : s ≤ q) : s ≤ r :=
  neg_le_neg_iff.mp (h.neg.le hs.neg (neg_le_neg hsq))

lemma zpow_of_le {e f : ℤ} (k : ℤ) (h : e ≤ f) :
    (k : ℚ) * 2 ^ f = ((k * 2 ^ (f - e).toNat : ℤ) : ℚ) * 2 ^ e := by
  push_cast
  rw [mul_assoc, ← zpow_natCast, ← zpow_add₀ two_ne_zero]
  congr 2
  omega

lemma nearest_multiple {v : ℚ} {n : ℕ} {e : ℤ} (he : -1074 ≤ e) (hn : n ≤ 2 ^ 53)
    (hv : 2 ^ 52 * 2 ^ e ≤ v ∨ e = -1074) (h : |n * 2 ^ e - v| ≤ 2 ^ e / 2) : Nearest v (n * 2 ^ e) := by
  have hpos := two_zpow_pos e
  -- no multiple of `2 ^ e` is nearer
  have hmultiple : ∀ k : ℤ, |(n : ℚ) * 2 ^ e - v| ≤ |k * 2 ^ e - v| := by
    intro k
    rcases eq_or_ne k n with rfl | hne
    · simp
    · have hone : (1 : ℚ) ≤ |(k : ℚ) - n| := by exact_mod_cast Int.one_le_abs (sub_ne_zero.mpr hne)
      have hfar : 2 ^ e ≤ |(k : ℚ) * 2 ^ e - n * 2 ^ e| := by
        rw [← sub_mul, abs_mul, abs_of_pos hpos]
        exact le_mul_of_one_le_left hpos.le hone
      have := abs_sub_le ((k : ℚ) * 2 ^ e) v (n * 2 ^ e)
      rw [abs_sub_comm v] at this
      linarith
  refine ⟨⟨n, e, by simpa using (by exact_mod_cast hn : (n : ℤ) ≤ 2 ^ 53), he, rfl⟩, ?_⟩
  rintro s ⟨k, f, hk, hf, rfl⟩
  by_cases hfe : e ≤ f
  · rw [zpow_of_le k hfe]
    exact hmultiple _
  · -- finer numbers lie below `2 ^ 52 * 2 ^ e`
    have hlow : (2 : ℚ) ^ 52 * 2 ^ e ≤ v := hv.resolve_right (by omega)
    have hbelow : (k : ℚ) * 2 ^ f ≤ 2 ^ 52 * 2 ^ e := by
      calc (k : ℚ) * 2 ^ f ≤ 2 ^ 53 * 2 ^ f := by
            have : (k : ℚ) ≤ 2 ^ 53 := by exact_mod_cast (le_abs_self k).trans hk
            exact mul_le_mul_of_nonneg_right this (two_zpow_pos f).le
        _ = 2 ^ 52 * 2 ^ (f + 1) := by rw [zpow_add_one₀ two_ne_zero]; ring
        _ ≤ 2 ^ 52 * 2 ^ e := by
            have : (2 : ℚ) ^ (f + 1) ≤ 2 ^ e := zpow_le_zpow_right₀ one_le_two (by omega)
            linarith
    have hbound := hmultiple (2 ^ 52)
    rw [Int.cast_pow, Int.cast_ofNat] at hbound
    calc |(n : ℚ) * 2 ^ e - v| ≤ |2 ^ 52 * 2 ^ e - v| := hbound
      _ = v - 2 ^ 52 * 2 ^ e := by rw [abs_sub_comm, abs_of_nonneg (sub_nonneg.mpr hlow)]
      _ ≤ v - (k : ℚ) * 2 ^ f := sub_le_sub_left hbelow v
      _ ≤ |(k : ℚ) * 2 ^ f - v| := by
          rw [abs_sub_comm]
          exact le_abs_self _

lemma nearest_of_round {n : ℕ} {x : ℚ} {e : ℤ} (he : -1074 ≤ e) (hx : x < 2 ^ 53)
    (hnormal : 2 ^ 52 ≤ x ∨ e = -1074) (h : |n - x| ≤ 1 / 2) :
    n ≤ 2 ^ 53 ∧ (2 ^ 52 ≤ n ∨ e = -1074) ∧ Nearest (x * 2 ^ e) (n * 2 ^ e) := by
  obtain ⟨hlower, hupper⟩ := abs_le.mp h
  have hscale := two_zpow_pos e
  have hmost : n ≤ 2 ^ 53 := by
    have : (n : ℚ) < 2 ^ 53 + 1 := by linarith
    exact Nat.lt_succ_iff.mp (by exact_mod_cast this)
  refine ⟨hmost, hnormal.imp_left fun hlow => ?_, nearest_multiple he hmost ?_ ?_⟩
  · have : (2 : ℚ) ^ 52 < n + 1 := by linarith
    exact Nat.lt_succ_iff.mp (by exact_mod_cast this)
  · exact hnormal.imp_left fun hlow => mul_le_mul_of_nonneg_right hlow hscale.le
  · rw [← sub_mul, abs_mul, abs_of_pos hscale]
    linarith [mul_le_mul_of_nonneg_right h hscale.le]

def Locates (m : ℕ) (t : ℚ) : Accuracy → Prop
  | .exact => t = m
  | .inexact .lt => m < t ∧ t < m + 1 / 2
  | .inexact .eq => t = m + 1 / 2
  | .inexact .gt => m + 1 / 2 < t ∧ t < m + 1

lemma Locates.bounds {m : ℕ} {t : ℚ} {a : Accuracy} (h : Locates m t a) : (m : ℚ) ≤ t ∧ t < m + 1 := by
  rcases a with _ | _ | _ | _ <;> simp only [Locates] at h <;> constructor <;> linarith

lemma Locates.ofMantissaAndAccuracy {m : ℕ} {t : ℚ} {a : Accuracy} (h : Locates m t a) :
    Locates (ExtendedMantissa.ofMantissaAndAccuracy m a).mantissa t
      (ExtendedMantissa.ofMantissaAndAccuracy m a).accuracy := by
  rcases a with _ | _ | _ | _ <;> exact h

lemma Locates.roundedMantissa {em : ExtendedMantissa} {t : ℚ} (h : Locates em.mantissa t em.accuracy) :
    |(em.roundedMantissa : ℚ) - t| ≤ 1 / 2 := by
  obtain ⟨m, round, sticky⟩ := em
  have hparity := Nat.mod_two_eq_zero_or_one m
  rw [abs_le]
  cases round <;> cases sticky <;>
    simp only [ExtendedMantissa.accuracy, ExtendedMantissa.roundedMantissa,
      Accuracy.roundToNearestEven, Locates] at h ⊢
  · constructor <;> linarith
  · constructor <;> linarith
  · rcases hparity with hm | hm <;> rw [hm] <;> push_cast <;> constructor <;> linarith
  · push_cast
    constructor <;> linarith

lemma Locates.shiftRightOne {em : ExtendedMantissa} {t : ℚ} (h : Locates em.mantissa t em.accuracy) :
    Locates em.shiftRightOne.mantissa (t / 2) em.shiftRightOne.accuracy := by
  obtain ⟨m, round, sticky⟩ := em
  have hsplit : (m : ℚ) = 2 * (m / 2 : ℕ) + (m % 2 : ℕ) := by exact_mod_cast (Nat.div_add_mod m 2).symm
  have hparity := Nat.mod_two_eq_zero_or_one m
  rcases hparity with hm | hm <;> rw [hm] at hsplit <;> cases round <;> cases sticky <;>
    simp [ExtendedMantissa.shiftRightOne, ExtendedMantissa.accuracy, Locates, hm] at h hsplit ⊢ <;>
    grind

lemma Locates.shiftRight {em : ExtendedMantissa} {t : ℚ} (h : Locates em.mantissa t em.accuracy) (n : ℕ) :
    Locates (em >>> n).mantissa (t / 2 ^ n) (em >>> n).accuracy := by
  change Locates (n.repeat _ em).mantissa _ (n.repeat _ em).accuracy
  induction n with
  | zero => simpa [Nat.repeat] using h
  | succ n ih =>
    rw [pow_succ, ← div_div]
    exact ih.shiftRightOne

section Rounding

variable {m : ℕ} {e : ℤ} {a : Accuracy} {t : ℚ}

lemma targetExponent_eq (m : ℕ) (e : ℤ) :
    Format.binary64.targetExponent (totalExponent m e) = max (m.log2 + e - 52) (-1074) := by
  have hmantissa : (Format.binary64.mantissaBits : ℤ) = 53 := rfl
  have hmin : Format.binary64.minExponent = -1074 := rfl
  rw [Format.targetExponent, totalExponent, hmantissa, hmin]
  congr 1
  omega

lemma shift_of_lt (hm : m < 2 ^ 53) (he : -1074 ≤ e) :
    shiftToTargetExponent .binary64 m e .exact = (⟨m, false, false⟩, e) := by
  have hlog : m.log2 ≤ 52 := by
    rcases eq_or_ne m 0 with rfl | hzero
    · simp
    · have := (Nat.log2_lt hzero).mpr hm
      omega
  have hshift : (Format.binary64.targetExponent (totalExponent m e) - e).toNat = 0 := by
    rw [targetExponent_eq]
    omega
  rw [shiftToTargetExponent, shiftToExponent, hshift, Nat.cast_zero, add_zero]
  rfl

lemma shift_carry (he : -1074 ≤ e) :
    shiftToTargetExponent .binary64 (2 ^ 53) e .exact = (⟨2 ^ 52, false, false⟩, e + 1) := by
  have hshift : (Format.binary64.targetExponent (totalExponent (2 ^ 53) e) - e).toNat = 1 := by
    rw [targetExponent_eq, Nat.log2_two_pow]
    omega
  rw [shiftToTargetExponent, shiftToExponent, hshift]
  rfl

def Rounds (q : ℚ) : UnpackedFloat → Prop
  | .zero _ => Nearest q 0
  | .finite s m e _ => Canonical m e ∧ Nearest q (signedBy s (m * 2 ^ e))
  | _ => False

lemma Nearest.signedBy {q r : ℚ} (h : Nearest q r) (s : Sign) : Nearest (signedBy s q) (signedBy s r) := by
  cases s with
  | negative => exact h.neg
  | positive => exact h

lemma log2_lt_pow (m : ℕ) : (m : ℚ) + 1 ≤ 2 ^ (m.log2 + 1) := by
  exact_mod_cast Nat.lt_log2_self

lemma rounds_carry {n : ℕ} {q : ℚ} (s : Sign) (hn : n ≤ 2 ^ 53) (he : -1074 ≤ e)
    (hshape : 2 ^ 52 ≤ n ∨ e = -1074) (h : Nearest q (signedBy s (n * 2 ^ e))) :
    Rounds q (
      let carried := shiftToTargetExponent .binary64 n e .exact
      if h : carried.1.mantissa = 0 then .zero s
      else .finite s carried.1.mantissa carried.2 (Nat.pos_of_ne_zero h)) := by
  rcases hn.lt_or_eq with hlt | rfl
  · rw [shift_of_lt hlt he]
    dsimp only
    split
    next hzero =>
      rw [hzero] at h
      cases s <;> simpa [Rounds, signedBy] using h
    next => exact ⟨⟨hlt, he, hshape⟩, h⟩
  · rw [shift_carry he]
    refine ⟨⟨by norm_num, by omega, Or.inl le_rfl⟩, ?_⟩
    have hvalue : ((2 ^ 53 : ℕ) : ℚ) * 2 ^ e = (2 ^ 52 : ℕ) * 2 ^ (e + 1) := by
      rw [zpow_add_one₀ two_ne_zero]
      push_cast
      ring
    rwa [hvalue] at h

lemma rounds_roundWithAccuracy (s : Sign) (ht : Locates m t a)
    (he : e ≤ max (m.log2 + e - 52) (-1074)) :
    Rounds (signedBy s (t * 2 ^ e)) (roundWithAccuracy .binary64 s m e a) := by
  generalize htarget : max ((m.log2 : ℤ) + e - 52) (-1074) = target at he
  have hlow : -1074 ≤ target := by omega
  obtain ⟨k, hk⟩ : ∃ k : ℕ, target = e + k := ⟨(target - e).toNat, by omega⟩
  have hfirst : shiftToTargetExponent .binary64 m e a =
      (ExtendedMantissa.ofMantissaAndAccuracy m a >>> k, target) := by
    have hshift : (Format.binary64.targetExponent (totalExponent m e) - e).toNat = k := by
      rw [targetExponent_eq]
      omega
    rw [shiftToTargetExponent, shiftToExponent, hshift, hk]
  have hround := (ht.ofMantissaAndAccuracy.shiftRight k).roundedMantissa
  have hpow : (0 : ℚ) < 2 ^ k := by positivity
  have hvalue : t * 2 ^ e = t / 2 ^ k * 2 ^ target := by
    rw [hk, zpow_add₀ two_ne_zero, zpow_natCast]
    field_simp
  -- the shifted mantissa has at most 53 bits, and exactly as many above the least exponent
  have hupper : t / 2 ^ k < 2 ^ 53 := by
    rw [div_lt_iff₀ hpow, ← pow_add]
    have hbits : (2 : ℚ) ^ (m.log2 + 1) ≤ 2 ^ (53 + k) := pow_le_pow_right₀ one_le_two (by omega)
    linarith [ht.bounds.2, log2_lt_pow m]
  have hnormal : 2 ^ 52 ≤ t / 2 ^ k ∨ target = -1074 := by
    by_cases hmin : target = -1074
    · exact Or.inr hmin
    · left
      have hm : m ≠ 0 := by
        rintro rfl
        rw [Nat.log2_zero] at htarget
        omega
      have hlog : (2 : ℚ) ^ m.log2 ≤ m := by exact_mod_cast Nat.log2_self_le hm
      rw [le_div_iff₀ hpow, ← pow_add, show 52 + k = m.log2 by omega]
      exact hlog.trans ht.bounds.1
  obtain ⟨hmost, hshape, hnearest⟩ := nearest_of_round hlow hupper hnormal hround
  simp only [roundWithAccuracy, hfirst, hvalue]
  exact rounds_carry s hmost hlow hshape (hnearest.signedBy s)

lemma mul_zpow_shift (m k : ℕ) (e : ℤ) : ((m <<< k : ℕ) : ℚ) * 2 ^ (e - k) = m * 2 ^ e := by
  rw [Nat.shiftLeft_eq, zpow_sub₀ two_ne_zero, zpow_natCast]
  push_cast
  field_simp

lemma log2_shift (hm : m ≠ 0) (k : ℕ) : (m <<< k).log2 = m.log2 + k := by
  have hlow := Nat.log2_self_le hm
  have hhigh := Nat.lt_log2_self (n := m)
  rw [Nat.log2_eq_iff (by simp [hm]), Nat.shiftLeft_eq, pow_add]
  refine ⟨Nat.mul_le_mul_right _ hlow, ?_⟩
  rw [show m.log2 + k + 1 = m.log2 + 1 + k by omega, pow_add]
  exact Nat.mul_lt_mul_of_pos_right hhigh (Nat.two_pow_pos k)

lemma rounds_round (s : Sign) (hm : m ≠ 0) (e : ℤ) :
    Rounds (signedBy s (m * 2 ^ e)) (UnpackedFloat.round .binary64 s m e) := by
  rw [UnpackedFloat.round, decreaseExponent, targetExponent_eq]
  generalize hk : (e - max (m.log2 + e - 52) (-1074)).toNat = k
  rw [← mul_zpow_shift m k e]
  refine rounds_roundWithAccuracy s (t := (m <<< k : ℕ)) rfl ?_
  rw [log2_shift hm]
  omega

lemma Representable.zero : Representable 0 := ⟨0, 0, by norm_num, by norm_num, by norm_num⟩

lemma rounds_normalize (m e : ℤ) (z : Sign) :
    Rounds (m * 2 ^ e) (UnpackedFloat.normalize .binary64 m e z) := by
  unfold UnpackedFloat.normalize
  rcases lt_trichotomy m 0 with h | rfl | h
  · have hm : (m : ℚ) = -((-m).toNat : ℕ) := by
      exact_mod_cast (by omega : m = -((-m).toNat : ℤ))
    rw [Int.compare_eq_lt.mpr h, hm, neg_mul]
    exact rounds_round .negative (by omega) e
  · rw [Int.cast_zero, zero_mul]
    exact .of_representable .zero
  · have hm : (m : ℚ) = (m.toNat : ℕ) := by
      exact_mod_cast (by omega : m = (m.toNat : ℤ))
    rw [Int.compare_eq_gt.mpr h, hm]
    exact rounds_round .positive (by omega) e

end Rounding

end TensorSchema.Double
