import Mathlib
import TensorSchema.Double.Rounding
import TensorSchema.Proofs.Double.Arithmetic

namespace TensorSchema.Double

open Float.Model

section Exact

variable {x y z : Float} {a b : ℤ}

lemma representable_int (h : |a| ≤ 2 ^ 53) : Representable a :=
  ⟨a, 0, h, by norm_num, by simp⟩

lemma le_greatest {q : ℚ} (h : q ≤ 2 ^ 200) : q ≤ greatest := by
  have hpow : (2 : ℚ) ^ (200 : ℤ) ≤ 2 ^ (971 : ℤ) := zpow_le_zpow_right₀ one_le_two (by norm_num)
  calc q ≤ 2 ^ (200 : ℤ) := by exact_mod_cast h
    _ ≤ (2 ^ 53 - 1) * 2 ^ (971 : ℤ) := hpow.trans (le_mul_of_one_le_left (two_zpow_pos _).le (by norm_num))

lemma Rounded.whole (h : Rounded a z) (ha : |a| ≤ 2 ^ 53) : value? z = some (a : ℚ) := by
  refine h.exact (representable_int ha) (le_greatest ?_)
  have : |(a : ℚ)| ≤ 2 ^ 53 := by exact_mod_cast ha
  linarith

lemma value?_add (hx : value? x = some (a : ℚ)) (hy : value? y = some (b : ℚ)) (h : |a + b| ≤ 2 ^ 53) :
    value? (x + y) = some ((a + b : ℤ) : ℚ) :=
  Rounded.whole (by exact_mod_cast rounded_add hx hy) h

lemma value?_sub (hx : value? x = some (a : ℚ)) (hy : value? y = some (b : ℚ)) (h : |a - b| ≤ 2 ^ 53) :
    value? (x - y) = some ((a - b : ℤ) : ℚ) :=
  Rounded.whole (by exact_mod_cast rounded_sub hx hy) h

lemma value?_mul (hx : value? x = some (a : ℚ)) (hy : value? y = some (b : ℚ)) (h : |a * b| ≤ 2 ^ 53) :
    value? (x * y) = some ((a * b : ℤ) : ℚ) :=
  Rounded.whole (by exact_mod_cast rounded_mul hx hy) h

lemma value?_div (hx : value? x = some ((a * b : ℤ) : ℚ)) (hy : value? y = some (b : ℚ)) (hb : b ≠ 0)
    (h : |a| ≤ 2 ^ 53) : value? (x / y) = some (a : ℚ) := by
  have hb' : (b : ℚ) ≠ 0 := by exact_mod_cast hb
  have hquotient := rounded_div hx hy hb'
  rw [Int.cast_mul, mul_div_cancel_right₀ _ hb'] at hquotient
  exact hquotient.whole h

lemma rounded_ofNat {n : ℕ} (hn : n < 2 ^ 64) : Rounded n (UInt64.ofNat n).toFloat := by
  have hvalue := (rounds_normalize n 0 .positive).pack
  rw [zpow_zero, mul_one, Int.cast_natCast] at hvalue
  change Rounded n ⟨Float.Model.pack (UnpackedFloat.ofNat .binary64 (UInt64.ofNat n).toNat)⟩
  rw [UInt64.toNat_ofNat_of_lt' hn]
  exact hvalue

lemma nearest_ofInt {i : ℤ} (hi : |i| < 2 ^ 64) : ∃ r, value? (ofInt i) = some r ∧ Nearest i r := by
  have hmagnitude : (i.natAbs : ℤ) < 2 ^ 64 := by rwa [← Int.abs_eq_natAbs]
  have hfinite : |(i.natAbs : ℚ)| ≤ greatest := by
    apply le_greatest
    rw [Nat.abs_cast]
    have : (i.natAbs : ℚ) < 2 ^ 64 := by exact_mod_cast hmagnitude
    linarith
  obtain ⟨r, hr, hnearest⟩ := (rounded_ofNat (by omega)).finite hfinite
  rw [Nat.cast_natAbs] at hnearest
  rcases lt_or_ge i 0 with hsign | hsign
  · refine ⟨-r, by simpa [ofInt, ofMagnitude, hsign] using value?_neg hr, ?_⟩
    rw [abs_of_neg hsign] at hnearest
    simpa using hnearest.neg
  · refine ⟨r, by simpa [ofInt, ofMagnitude, hsign.not_gt] using hr, ?_⟩
    rwa [abs_of_nonneg hsign] at hnearest

lemma value?_ofMagnitude {n : ℕ} (negative : Bool) (hn : n ≤ 2 ^ 53) :
    value? (ofMagnitude negative n) = some (signed negative n : ℚ) := by
  have hvalue := Rounded.whole (a := n) (rounded_ofNat (by omega)) (by
    rw [Nat.abs_cast]
    exact_mod_cast hn)
  cases negative with
  | false => exact hvalue
  | true => simpa [ofMagnitude, signed] using value?_neg hvalue

end Exact

section Rounding

variable {x y : Float} {p q : ℚ} {f : Bool → ℕ → ℕ → ℕ}

def truncated (q : ℚ) : ℤ := if 0 ≤ q then ⌊q⌋ else ⌈q⌉

lemma truncated_of_nonneg (h : 0 ≤ q) : truncated q = ⌊q⌋ := if_pos h

lemma truncated_neg (q : ℚ) : truncated (-q) = -truncated q := by
  unfold truncated
  rcases lt_trichotomy q 0 with h | rfl | h
  · rw [if_pos (by linarith), if_neg (by linarith), Int.floor_neg]
  · simp
  · rw [if_neg (by linarith), if_pos h.le, Int.ceil_neg]

lemma truncated_intCast (n : ℤ) : truncated n = n := by simp [truncated]

lemma truncated_signed (negative : Bool) (m d : ℕ) :
    truncated ((signed negative m : ℚ) / d) = signed negative (m / d) := by
  have hfloor : truncated ((m : ℚ) / d) = (m / d : ℕ) := by
    rw [truncated_of_nonneg (by positivity), ← Int.cast_natCast m, Rat.floor_intCast_div_natCast,
      Int.natCast_div]
  cases negative with
  | false => simpa [signed] using hfloor
  | true =>
    have hneg : (signed true m : ℚ) / d = -(m / d) := by simp [signed, neg_div]
    rw [hneg, truncated_neg, hfloor]
    rfl

lemma value?_eq_div {negative : Bool} {m : ℕ} {e : ℤ} (he : ¬ 0 ≤ e) :
    (signed negative m : ℚ) * 2 ^ e = signed negative m / (twoTo (-e).toNat : ℕ) := by
  have hpow : (2 : ℚ) ^ e = ((2 : ℚ) ^ (-e).toNat)⁻¹ := by
    rw [← zpow_natCast, ← zpow_neg]
    congr 1
    omega
  rw [hpow, twoTo, Nat.one_shiftLeft, ← div_eq_mul_inv]
  push_cast
  rfl

lemma value?_eq_mul {negative : Bool} {m : ℕ} {e : ℤ} (he : 0 ≤ e) :
    (signed negative m : ℚ) * 2 ^ e = (signed negative (m * twoTo e.toNat) : ℤ) := by
  obtain ⟨k, rfl⟩ := Int.eq_ofNat_of_zero_le he
  cases negative <;> simp [signed, twoTo, Nat.one_shiftLeft]

lemma one_lt_twoTo {e : ℤ} (he : ¬ 0 ≤ e) : 1 < twoTo (-e).toNat := by
  rw [twoTo, Nat.one_shiftLeft]
  exact Nat.one_lt_two_pow (by omega)

lemma value?_roundWith (hf : ∀ negative m d, 1 < d → f negative m d ≤ m) (hx : value? x = some q) :
    (∃ n : ℤ, q = n ∧ value? (roundWith f x) = some (n : ℚ)) ∨
      ∃ negative m d, 1 < d ∧ q = signed negative m / (d : ℕ) ∧
        value? (roundWith f x) = some (signed negative (f negative m d) : ℚ) := by
  obtain ⟨negative, m, e, hparts, rfl⟩ := parts_of_value? hx
  have hm : m < 2 ^ 53 := (canonical_of_parts hparts).1.1
  by_cases he : 0 ≤ e
  · left
    refine ⟨_, value?_eq_mul he, ?_⟩
    rw [roundWith, hparts, ← value?_eq_mul he, ← hx]
    exact congrArg value? (if_pos he)
  · right
    have hd := one_lt_twoTo he
    refine ⟨negative, m, _, hd, value?_eq_div he, ?_⟩
    rw [roundWith, hparts, ← value?_ofMagnitude negative ((hf negative m _ hd).trans hm.le)]
    exact congrArg value? (if_neg he)

lemma value?_trunc (hx : value? x = some q) : value? (trunc x) = some (truncated q : ℚ) := by
  have hbound : ∀ (negative : Bool) (m d : ℕ), 1 < d → m / d ≤ m := fun _ m d _ => Nat.div_le_self m d
  rcases value?_roundWith hbound hx with ⟨n, rfl, hn⟩ | ⟨negative, m, d, -, rfl, hvalue⟩
  · rw [truncated_intCast]
    exact hn
  · rw [truncated_signed]
    exact hvalue

lemma toInt?_eq (hx : value? x = some q) : toInt? x = some (truncated q) := by
  obtain ⟨negative, m, e, hparts, rfl⟩ := parts_of_value? hx
  rw [toInt?, hparts]
  by_cases he : 0 ≤ e
  · simp only [he, if_true, value?_eq_mul he, truncated_intCast]
  · simp only [he, if_false, value?_eq_div he, truncated_signed]

lemma signed_mul (negative : Bool) (m d : ℕ) : signed negative (m * d) = signed negative m * d := by
  cases negative <;> simp [signed]

lemma dvd_signed {negative : Bool} {m d : ℕ} (h : (d : ℤ) ∣ signed negative m) : d ∣ m := by
  cases negative with
  | false => exact Int.natCast_dvd_natCast.mp h
  | true => exact Int.natCast_dvd_natCast.mp (Int.dvd_neg.mp h)

lemma whole?_eq_some {n : ℤ} : whole? x = some n ↔ value? x = some (n : ℚ) := by
  rw [whole?, value?]
  cases parts x with
  | nan | infinite => simp
  | finite negative m e =>
    by_cases he : 0 ≤ e
    · simp only [he, if_true, value?_eq_mul he, Option.some.injEq, Int.cast_inj]
    · have hd : (twoTo (-e).toNat : ℤ) ≠ 0 := by exact_mod_cast (one_lt_twoTo he).ne_bot
      simp only [he, if_false, value?_eq_div he, Option.some.injEq]
      generalize twoTo (-e).toNat = d at hd
      have hscale : (signed negative m : ℚ) / d = n ↔ signed negative m = n * d := by
        rw [div_eq_iff (by exact_mod_cast hd)]
        exact_mod_cast Iff.rfl
      rw [hscale]
      by_cases hm : m % d = 0
      · obtain ⟨k, rfl⟩ := Nat.dvd_of_mod_eq_zero hm
        rw [if_pos hm, Nat.mul_comm d k, Nat.mul_div_cancel _ (by omega), Option.some.injEq, signed_mul]
        exact (mul_left_inj' hd).symm
      · rw [if_neg hm]
        refine iff_of_false (by simp) ?_
        intro h
        have hdvd : (d : ℤ) ∣ signed negative m := ⟨n, h.trans (mul_comm _ _)⟩
        exact hm (Nat.mod_eq_zero_of_dvd (dvd_signed hdvd))

lemma value?_one : value? 1 = some 1 := by
  have hone : whole? 1 = some 1 := by decide
  exact_mod_cast whole?_eq_some.mp hone

lemma value?_ceil (hx : value? x = some q) : value? (ceil x) = some (⌈q⌉ : ℚ) := by
  have hbound : ∀ (negative : Bool) (m d : ℕ), 1 < d →
      (if negative then m / d else (m + d - 1) / d) ≤ m := by
    intro negative m d hd
    split
    · exact Nat.div_le_self m d
    · rw [Nat.div_le_iff_le_mul_add_pred (by omega)]
      have := Nat.le_mul_of_pos_left m (by omega : 0 < d)
      omega
  rcases value?_roundWith hbound hx with ⟨n, rfl, hn⟩ | ⟨negative, m, d, hd, rfl, hvalue⟩
  · rw [Int.ceil_intCast]
    exact hn
  · refine hvalue.trans (congrArg (some ∘ Int.cast) (Eq.symm ?_))
    have hpos : (0 : ℚ) < d := by positivity
    cases negative with
    | false =>
      have hsplit := Nat.div_add_mod (m + d - 1) d
      have hrest := Nat.mod_lt (m + d - 1) (by omega : d > 0)
      simp only [signed, Bool.false_eq_true, if_false]
      generalize (m + d - 1) / d = k at *
      rw [Int.ceil_eq_iff, lt_div_iff₀ hpos, div_le_iff₀ hpos]
      have hlow : k * d < m + d := by rw [mul_comm]; omega
      have hhigh : m ≤ k * d := by rw [mul_comm]; omega
      have hlow' : (k * d : ℚ) < m + d := by exact_mod_cast hlow
      exact ⟨by push_cast; linarith, by exact_mod_cast hhigh⟩
    | true =>
      rw [show (signed true m : ℚ) / d = -((m : ℤ) / d) by simp [signed, neg_div], Int.ceil_neg,
        Rat.floor_intCast_div_natCast]
      rfl

lemma value?_round (hx : value? x = some q) :
    ∃ n : ℤ, value? (round x) = some (n : ℚ) ∧ |n - q| ≤ 1 / 2 := by
  have hbound : ∀ (negative : Bool) (m d : ℕ), 1 < d → (2 * m + d) / (2 * d) ≤ m := by
    intro negative m d hd
    rw [Nat.div_le_iff_le_mul_add_pred (by omega)]
    have := Nat.le_mul_of_pos_left (2 * m) (by omega : 0 < d)
    have : 2 * d * m = d * (2 * m) := by ring
    omega
  rcases value?_roundWith hbound hx with ⟨n, rfl, hn⟩ | ⟨negative, m, d, hd, rfl, hvalue⟩
  · exact ⟨n, hn, by simp⟩
  · refine ⟨_, hvalue, ?_⟩
    have hpos : (0 : ℚ) < d := by positivity
    have hsplit := Nat.div_add_mod (2 * m + d) (2 * d)
    have hrest := Nat.mod_lt (2 * m + d) (by omega : 2 * d > 0)
    generalize (2 * m + d) / (2 * d) = k at *
    have hnear : |(k : ℚ) - m / d| ≤ 1 / 2 := by
      have hlow : (2 * d * k : ℚ) ≤ 2 * m + d := by exact_mod_cast (by omega : 2 * d * k ≤ 2 * m + d)
      have hhigh : (2 * m : ℚ) ≤ 2 * d * k + d := by exact_mod_cast (by omega : 2 * m ≤ 2 * d * k + d)
      rw [sub_div' hpos.ne', abs_div, abs_of_pos hpos, div_le_div_iff₀ hpos two_pos, one_mul,
        ← le_div_iff₀ two_pos, abs_le]
      constructor <;> linarith
    cases negative with
    | false => simpa [signed] using hnear
    | true =>
      rw [← abs_neg]
      convert hnear using 2
      simp [signed]
      ring

lemma eq_of_abs_sub_le_half {n k : ℤ} (h : |(n : ℚ) - k| ≤ 1 / 2) : n = k := by
  have hlt : |(n : ℚ) - k| < 1 := by linarith
  have hlt' : |n - k| < 1 := by exact_mod_cast hlt
  exact sub_eq_zero.mp (Int.abs_lt_one_iff.mp hlt')

lemma clampWhole_eq (bits : ℕ) (hx : value? x = some q) :
    clampWhole bits x = max (-2 ^ (bits - 1)) (min (truncated q) (2 ^ (bits - 1) - 1)) := by
  obtain ⟨negative, m, e, hparts, -⟩ := parts_of_value? hx
  rw [clampWhole, hparts]
  simp only [toInt?_eq hx, Option.getD_some, twoTo, Nat.one_shiftLeft, Nat.cast_pow, Nat.cast_ofNat]

lemma clampWhole_intCast {bits : ℕ} {n : ℤ} (hx : value? x = some (n : ℚ)) (hlow : -2 ^ (bits - 1) ≤ n)
    (hhigh : n ≤ 2 ^ (bits - 1) - 1) : clampWhole bits x = n := by
  rw [clampWhole_eq bits hx, truncated_intCast, min_eq_left hhigh, max_eq_right hlow]

lemma value?_maxNumber (hx : value? x = some p) (hy : value? y = some q) :
    value? (maxNumber x y) = some (max p q) := by
  simp only [maxNumber, isNaN_of_value? hx, isNaN_of_value? hy, Bool.false_eq_true, if_false,
    lt_iff hx hy]
  split
  next h => rw [hy, max_eq_right h.le]
  next h => rw [hx, max_eq_left (not_lt.mp h)]

lemma value?_minNumber (hx : value? x = some p) (hy : value? y = some q) :
    value? (minNumber x y) = some (min p q) := by
  simp only [minNumber, isNaN_of_value? hx, isNaN_of_value? hy, Bool.false_eq_true, if_false,
    lt_iff hy hx]
  split
  next h => rw [hy, min_eq_right h.le]
  next h => rw [hx, min_eq_left (not_lt.mp h)]

end Rounding

section Quotient

variable {q r : ℚ} {a b : ℤ}

lemma representable_two_zpow {e : ℤ} (he : -1074 ≤ e) : Representable (2 ^ e) :=
  ⟨1, e, by norm_num, he, by norm_num⟩

lemma Rounded.bounded {z : Float} {e : ℕ} (h : Rounded q z) (ha : |a| ≤ 2 ^ 53) (hlow : a ≤ q)
    (hhigh : q ≤ 2 ^ e) (he : e ≤ 200) : ∃ r, value? z = some r ∧ a ≤ r ∧ r ≤ 2 ^ e := by
  have hpower : (2 : ℚ) ^ e ≤ 2 ^ 200 := pow_le_pow_right₀ one_le_two he
  have ha' : -2 ^ 53 ≤ (a : ℚ) := by exact_mod_cast (abs_le.mp ha).1
  have hfinite : |q| ≤ greatest := by
    apply le_greatest
    rw [abs_le]
    constructor <;> linarith
  have hlimit : Representable (2 ^ e) := by
    rw [← zpow_natCast]
    exact representable_two_zpow (by omega)
  obtain ⟨r, hr, hnearest⟩ := h.finite hfinite
  exact ⟨r, hr, hnearest.ge (representable_int ha) hlow, hnearest.le hlimit hhigh⟩

lemma Nearest.one_le_abs (h : Nearest a r) (ha : a ≠ 0) : 1 ≤ |r| := by
  have hone : Representable 1 := by exact_mod_cast representable_int (a := 1) (by norm_num)
  rcases lt_or_gt_of_ne ha with hneg | hpos
  · have hle : (a : ℚ) ≤ -1 := by exact_mod_cast Int.le_sub_one_of_lt hneg
    exact le_abs.mpr (Or.inr (le_neg_of_le_neg (h.le hone.neg hle)))
  · have hle : (1 : ℚ) ≤ a := by exact_mod_cast hpos
    exact le_abs.mpr (Or.inl (h.ge hone hle))

lemma Nearest.error {e : ℤ} (h : Nearest q r) (he : -1022 ≤ e) (hlow : 2 ^ e ≤ q)
    (hhigh : q < 2 ^ (e + 1)) : |r - q| ≤ 2 ^ (e - 53) := by
  have hunit := two_zpow_pos (e - 52)
  have hscale : (2 : ℚ) ^ (e + 1) = 2 ^ 53 * 2 ^ (e - 52) := by
    rw [show e + 1 = 53 + (e - 52) by omega, zpow_add₀ two_ne_zero]
    rfl
  obtain ⟨n, hn⟩ : ∃ n : ℤ, |q / 2 ^ (e - 52) - n| ≤ 1 / 2 := ⟨_, abs_sub_round _⟩
  have hbelow : q / 2 ^ (e - 52) < 2 ^ 53 := by rwa [div_lt_iff₀ hunit, ← hscale]
  have habove : 0 < q / 2 ^ (e - 52) := div_pos ((two_zpow_pos e).trans_le hlow) hunit
  obtain ⟨hn₁, hn₂⟩ := abs_le.mp hn
  have hmost : |n| ≤ 2 ^ 53 := by
    have hupper : (n : ℚ) < 2 ^ 53 + 1 := by linarith
    have hlower : (-1 : ℚ) < n := by linarith
    have hupper' : n < 2 ^ 53 + 1 := by exact_mod_cast hupper
    have hlower' : -1 < n := by exact_mod_cast hlower
    rw [abs_of_nonneg (by omega)]
    omega
  calc |r - q| ≤ |n * 2 ^ (e - 52) - q| := h.2 _ ⟨n, e - 52, hmost, by omega, rfl⟩
    _ = |q / 2 ^ (e - 52) - n| * 2 ^ (e - 52) := by
        rw [abs_sub_comm, ← abs_of_pos hunit, ← abs_mul, abs_of_pos hunit, sub_mul,
          div_mul_cancel₀ _ hunit.ne']
    _ ≤ 1 / 2 * 2 ^ (e - 52) := mul_le_mul_of_nonneg_right hn hunit.le
    _ = 2 ^ (e - 53) := by rw [show e - 52 = e - 53 + 1 by omega, zpow_add_one₀ two_ne_zero]; ring

lemma Nearest.relative (h : Nearest q r) (hq : 2 ^ (-1022 : ℤ) ≤ q) : |r - q| ≤ q / 2 ^ 53 := by
  obtain ⟨e, hlow, hhigh⟩ := exists_mem_Ico_zpow ((two_zpow_pos _).trans_le hq) one_lt_two
  have he : -1022 ≤ e := by
    have := (zpow_lt_zpow_iff_right₀ one_lt_two).mp (hq.trans_lt hhigh)
    omega
  calc |r - q| ≤ 2 ^ (e - 53) := h.error he hlow hhigh
    _ = 2 ^ e / 2 ^ 53 := zpow_sub₀ two_ne_zero e 53
    _ ≤ q / 2 ^ 53 := div_le_div_of_nonneg_right hlow (by positivity)

lemma Representable.multiple {e : ℤ} (h : Representable r) (hlow : 2 ^ e ≤ r) :
    ∃ n : ℤ, r = n * 2 ^ (e - 52) := by
  obtain ⟨k, f, hk, -, rfl⟩ := h
  by_cases hf : e - 52 ≤ f
  · exact ⟨_, zpow_of_le k hf⟩
  · -- a finer number is at most `2 ^ e`, and so equal to it
    have hk' : (k : ℚ) ≤ 2 ^ 53 := by exact_mod_cast (le_abs_self k).trans hk
    have hupper : (k : ℚ) * 2 ^ f ≤ 2 ^ e := by
      calc (k : ℚ) * 2 ^ f ≤ 2 ^ 53 * 2 ^ f := mul_le_mul_of_nonneg_right hk' (two_zpow_pos f).le
        _ = 2 ^ (53 + f) := (zpow_add₀ two_ne_zero 53 f).symm
        _ ≤ 2 ^ e := zpow_le_zpow_right₀ one_le_two (by omega)
    refine ⟨2 ^ 52, (le_antisymm hupper hlow).trans ?_⟩
    rw [show (2 : ℚ) ^ e = 2 ^ (52 + (e - 52)) by congr 1; omega, zpow_add₀ two_ne_zero]
    norm_cast

/-- From `2 ^ 53` on, doubles are at least two apart. -/
lemma Representable.even (h : Representable r) (hr : 2 ^ 53 ≤ |r|) :
    ∃ k : ℤ, r = ((2 * k : ℤ) : ℚ) := by
  have hpositive : ∀ {r : ℚ}, Representable r → 2 ^ 53 ≤ r → ∃ k : ℤ, r = ((2 * k : ℤ) : ℚ) := by
    intro r h hr
    obtain ⟨k, rfl⟩ := h.multiple (e := 53) (by exact_mod_cast hr)
    exact ⟨k, by push_cast; norm_num [mul_comm]⟩
  rcases le_abs.mp hr with hr | hr
  · exact hpositive h hr
  · obtain ⟨k, hk⟩ := hpositive h.neg hr
    refine ⟨-k, ?_⟩
    rw [neg_eq_iff_eq_neg.mp hk]
    push_cast
    ring

lemma Nearest.whole (h : Nearest a r) : ∃ n : ℤ, r = n := by
  by_cases ha : |a| ≤ 2 ^ 53
  · exact ⟨a, h.eq (representable_int ha)⟩
  · have hlimit : Representable (2 ^ 53) := by
      exact_mod_cast representable_two_zpow (e := 53) (by norm_num)
    have hr : 2 ^ 53 ≤ |r| := by
      rcases lt_abs.mp (not_le.mp ha) with hpos | hneg
      · have hle : (2 : ℚ) ^ 53 ≤ a := by exact_mod_cast hpos.le
        exact le_abs.mpr (Or.inl (h.ge hlimit hle))
      · have hle : (a : ℚ) ≤ -2 ^ 53 := by exact_mod_cast le_neg_of_le_neg hneg.le
        exact le_abs.mpr (Or.inr (le_neg_of_le_neg (h.le hlimit.neg hle)))
    obtain ⟨k, hk⟩ := h.1.even hr
    exact ⟨_, hk⟩

lemma floor_nearest (ha : 0 ≤ a) (ha' : a < 2 ^ 53) (hb : 0 < b) (h : Nearest (a / b) r) :
    ⌊r⌋ = a / b := by
  have hb' : (0 : ℚ) < b := by exact_mod_cast hb
  have hfloor : 0 ≤ a / b ∧ a / b ≤ a := ⟨Int.ediv_nonneg ha hb.le, Int.ediv_le_self b ha⟩
  have hbelow : a / b * b ≤ a := Int.ediv_mul_le a hb.ne'
  have habove : a + 1 ≤ (a / b + 1) * b := Int.lt_ediv_add_one_mul_self a hb
  generalize a / b = k at *
  rw [Int.floor_eq_iff]
  constructor
  · refine h.ge (representable_int (by rw [abs_of_nonneg hfloor.1]; omega)) ?_
    rw [le_div_iff₀ hb']
    exact_mod_cast hbelow
  · by_cases hhalf : (a / b : ℚ) ≤ 2 ^ (-1 : ℤ)
    · have hr := h.le (representable_two_zpow (by norm_num)) hhalf
      have hk : (0 : ℚ) ≤ k := by exact_mod_cast hfloor.1
      norm_num at hr
      linarith
    · have hsmall : (2 : ℚ) ^ (-1022 : ℤ) ≤ 2 ^ (-1 : ℤ) := zpow_le_zpow_right₀ one_le_two (by norm_num)
      have herror := (le_abs_self _).trans (h.relative (hsmall.trans (not_le.mp hhalf).le))
      -- the error is less than the distance `1 / b` to the next whole number
      have hgap : (a / b : ℚ) / 2 ^ 53 < 1 / b := by
        rw [div_div, mul_comm, ← div_div, div_lt_div_iff_of_pos_right hb', div_lt_one (by positivity)]
        exact_mod_cast ha'
      have hnext : (a / b : ℚ) + 1 / b ≤ k + 1 := by
        rw [← add_div, div_le_iff₀ hb']
        exact_mod_cast habove
      linarith

lemma truncated_nearest (ha : |a| < 2 ^ 53) (hb : 0 < b) (h : Nearest (a / b) r) :
    truncated r = a.tdiv b := by
  have hnonneg : ∀ {a : ℤ} {r : ℚ}, 0 ≤ a → a < 2 ^ 53 → Nearest (a / b) r →
      truncated r = a.tdiv b := by
    intro a r ha ha' h
    have hr : 0 ≤ r := by
      refine h.ge .zero (div_nonneg ?_ ?_)
      · exact_mod_cast ha
      · exact_mod_cast hb.le
    rw [truncated_of_nonneg hr, floor_nearest ha ha' hb h, Int.tdiv_eq_ediv_of_nonneg ha]
  rcases le_or_gt 0 a with hsign | hsign
  · exact hnonneg hsign (abs_lt.mp ha).2 h
  · have hneg := hnonneg (a := -a) (r := -r) (by omega) (by rw [abs_of_neg hsign] at ha; exact ha)
      (by simpa [neg_div] using h.neg)
    rwa [truncated_neg, Int.neg_tdiv, neg_inj] at hneg

end Quotient

end TensorSchema.Double
