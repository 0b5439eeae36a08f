import Mathlib
import TensorSchema.Dimension.Grid
import TensorSchema.Proofs.Double.Whole

namespace TensorSchema

open Double

lemma exactInt64_eq_some {i : ℤ} {n : Int64} : exactInt64 i = some n ↔ n.toInt = i := by
  unfold exactInt64
  split
  next h =>
    rw [Option.some.injEq, ← Int64.toInt_inj, Int64.toInt_ofInt_of_le h.1 h.2]
    exact eq_comm
  next h =>
    refine iff_of_false (by simp) ?_
    rintro rfl
    exact h ⟨n.le_toInt, n.toInt_lt⟩

namespace Dimension

variable {x y s : Float} {a b c k : ℤ}

lemma hasStep_of_whole {d : Dimension} (hs : value? d.spacing = some (c : ℚ)) (hc : 0 < c) :
    d.hasStep = true := by
  have hpos : 0 < d.spacing := (lt_iff value?_zero hs).mpr (by exact_mod_cast hc)
  simp [hasStep, isFinite_of_value? hs, hpos]

lemma value?_exactInt64 (h : |k| < 2 ^ 63) : ∃ n, exactInt64 k = some n ∧ n.toInt = k := by
  obtain ⟨hlow, hhigh⟩ := abs_lt.mp h
  exact ⟨Int64.ofInt k, if_pos ⟨hlow.le, hhigh⟩, Int64.toInt_ofInt_of_le hlow.le hhigh⟩

lemma lengthBetween_of_steps {q : ℚ} (h : value? ((y - x) / s) = some q) (hq : |truncated q| < 2 ^ 62) :
    ∃ n, lengthBetween x y s = some n ∧ n.toInt = truncated q + 1 := by
  obtain ⟨steps, hsteps, hvalue⟩ := value?_exactInt64 (k := truncated q) (by omega)
  obtain ⟨n, hn, hlength⟩ := value?_exactInt64 (k := truncated q + 1) (by
    rw [abs_lt] at hq ⊢
    omega)
  refine ⟨n, ?_, hlength⟩
  simp [lengthBetween, toInt?_eq h, hsteps, hvalue, hn]

lemma toInt_lengthBetween {n : Int64} {q : ℚ} (h : lengthBetween x y s = some n)
    (hsteps : value? ((y - x) / s) = some q) : n.toInt = truncated q + 1 := by
  rw [lengthBetween, toInt?_eq hsteps] at h
  obtain ⟨steps, hwhole, hn⟩ := Option.bind_eq_some_iff.mp h
  rw [exactInt64_eq_some.mp hn, exactInt64_eq_some.mp hwhole]

variable (hx : value? x = some (a : ℚ)) (hs : value? s = some (c : ℚ)) (hc : 0 < c)

include hx hs hc

lemma lengthBetween_of_le (hy : value? y = some (b : ℚ)) (hab : a ≤ b) (hbound : b - a ≤ 2 ^ 60) :
    ∃ n, lengthBetween x y s = some n := by
  have hab' : (0 : ℚ) ≤ b - a := by
    rw [sub_nonneg]
    exact_mod_cast hab
  have hbound' : (b : ℚ) - a ≤ 2 ^ (60 : ℤ) := by exact_mod_cast hbound
  have hpower : Representable (2 ^ (60 : ℤ)) := representable_two_zpow (by norm_num)
  have hfinite : ∀ {q : ℚ}, 0 ≤ q → q ≤ 2 ^ (60 : ℤ) → |q| ≤ greatest := by
    intro q hq hq'
    rw [abs_of_nonneg hq]
    exact le_greatest (hq'.trans (by norm_num))
  obtain ⟨r, hr, hwidth⟩ := (rounded_sub hy hx).finite (hfinite hab' hbound')
  have hr0 := hwidth.ge .zero hab'
  have hr1 := hwidth.le hpower hbound'
  have hc' : (1 : ℚ) ≤ c := by exact_mod_cast hc
  have hq0 : 0 ≤ r / c := div_nonneg hr0 (by linarith)
  have hq1 : r / c ≤ 2 ^ (60 : ℤ) := (div_le_self hr0 hc').trans hr1
  obtain ⟨t, ht, hsteps⟩ := (rounded_div hr hs (by linarith)).finite (hfinite hq0 hq1)
  have ht0 := hsteps.ge .zero hq0
  have ht1 := hsteps.le hpower hq1
  have hlimit : (2 : ℚ) ^ (60 : ℤ) < ((2 ^ 62 : ℤ) : ℚ) := by norm_num
  obtain ⟨n, hn, -⟩ := lengthBetween_of_steps ht (by
    rw [truncated_of_nonneg ht0, abs_of_nonneg (Int.floor_nonneg.mpr ht0), Int.floor_lt]
    exact ht1.trans_lt hlimit)
  exact ⟨n, hn⟩

lemma lengthBetween_of_multiple (hy : value? y = some ((a + k * c : ℤ) : ℚ)) (hk : 0 ≤ k)
    (hbound : k * c ≤ 2 ^ 53) : ∃ n, lengthBetween x y s = some n ∧ n.toInt = k + 1 := by
  have hk' : k ≤ k * c := le_mul_of_one_le_right hk hc
  have hwidth := value?_sub hy hx (by
    rw [add_sub_cancel_left, abs_of_nonneg (by omega)]
    exact hbound)
  rw [add_sub_cancel_left] at hwidth
  have hsteps := value?_div hwidth hs hc.ne' (by rw [abs_of_nonneg hk]; omega)
  obtain ⟨n, hn, hlength⟩ := lengthBetween_of_steps hsteps (by
    rw [truncated_intCast, abs_of_nonneg hk]
    omega)
  rw [truncated_intCast] at hlength
  exact ⟨n, hn, hlength⟩

end Dimension

namespace Grid

def slack : ℚ := 4835703278458517 * 2 ^ (-82 : ℤ)

lemma value?_tolerance : value? tolerance = some slack := by
  have hparts : parts tolerance = .finite false 4835703278458517 (-82) := by decide +kernel
  rw [value?_of_parts hparts, slack]
  rfl

lemma slack_pos : 0 < slack := mul_pos (by norm_num) (two_zpow_pos _)

lemma representable_slack : Representable slack := representable_of_value? value?_tolerance

section Steps

variable {q r z : ℚ} {a c n : ℤ}

lemma slack_mul_lt (hc : 3 * c < 10 ^ 9) : 3 * slack * c < 1 := by
  have hc' : (3 * c : ℚ) ≤ 10 ^ 9 - 1 := by
    have : 3 * c ≤ 10 ^ 9 - 1 := by omega
    exact_mod_cast this
  have hslack : slack * (10 ^ 9 - 1) < 1 := by
    rw [slack]
    norm_num
  calc 3 * slack * c = slack * (3 * c) := by ring
    _ ≤ slack * (10 ^ 9 - 1) := mul_le_mul_of_nonneg_left hc' slack_pos.le
    _ < 1 := hslack

lemma one_div_le_abs_sub (hc : 0 < c) (hn : a ≠ n * c) : 1 / c ≤ |(a / c : ℚ) - n| := by
  have hpos : (0 : ℚ) < c := by exact_mod_cast hc
  have hone : (1 : ℚ) ≤ |(a : ℚ) - n * c| := by exact_mod_cast Int.one_le_abs (sub_ne_zero.mpr hn)
  rw [div_sub' hpos.ne', abs_div, abs_of_pos hpos, mul_comm (c : ℚ)]
  exact div_le_div_of_nonneg_right hone hpos.le

lemma two_zpow_le_abs_sub {m k e : ℤ} (h : (m : ℚ) * 2 ^ e ≠ k * 2 ^ e) :
    2 ^ e ≤ |(m : ℚ) * 2 ^ e - k * 2 ^ e| := by
  have hne : m - k ≠ 0 := by
    intro heq
    rw [sub_eq_zero.mp heq] at h
    exact h rfl
  have hone : (1 : ℚ) ≤ |(m : ℚ) - k| := by exact_mod_cast Int.one_le_abs hne
  rw [← sub_mul, abs_mul, abs_of_pos (two_zpow_pos e)]
  exact le_mul_of_one_le_left (two_zpow_pos e).le hone

/-- The error of a rounded quotient is less than the distance of the quotient to whole numbers. -/
lemma exists_scale (ha : 0 < a) (ha' : a < 2 ^ 53) (hc : 0 < c) (hc' : c < 2 ^ 53) :
    ∃ e : ℤ, -1022 ≤ e ∧ e ≤ 52 ∧ 2 ^ e ≤ (a / c : ℚ) ∧ (a / c : ℚ) < 2 ^ (e + 1) ∧
      (2 : ℚ) ^ (e - 53) < 1 / c := by
  have hpos : (0 : ℚ) < c := by exact_mod_cast hc
  have ha₁ : (1 : ℚ) ≤ a := by exact_mod_cast ha
  have ha₂ : (a : ℚ) < 2 ^ (53 : ℤ) := by exact_mod_cast ha'
  have hc₁ : (1 : ℚ) ≤ c := by exact_mod_cast hc
  have hc₂ : (c : ℚ) ≤ 2 ^ (53 : ℤ) := by exact_mod_cast hc'.le
  obtain ⟨e, hlow, hhigh⟩ := exists_mem_Ico_zpow (by positivity : (0 : ℚ) < a / c) one_lt_two
  refine ⟨e, ?_, ?_, hlow, hhigh, ?_⟩
  · have hleast : (2 : ℚ) ^ (-53 : ℤ) ≤ a / c := by
      rw [zpow_neg, ← one_div]
      exact div_le_div₀ (by linarith) ha₁ hpos hc₂
    have := (zpow_lt_zpow_iff_right₀ one_lt_two).mp (hleast.trans_lt hhigh)
    omega
  · have hmost : (a / c : ℚ) < 2 ^ (53 : ℤ) := (div_le_self (by linarith) hc₁).trans_lt ha₂
    have := (zpow_lt_zpow_iff_right₀ one_lt_two).mp (hlow.trans_lt hmost)
    omega
  · calc (2 : ℚ) ^ (e - 53) = 2 ^ e / 2 ^ (53 : ℤ) := zpow_sub₀ two_ne_zero e 53
      _ ≤ a / c / 2 ^ (53 : ℤ) := div_le_div_of_nonneg_right hlow (two_zpow_pos _).le
      _ = a / 2 ^ (53 : ℤ) / c := div_right_comm ..
      _ < 1 / c := by rwa [div_lt_div_iff_of_pos_right hpos, div_lt_one (two_zpow_pos _)]

variable (ha : 0 ≤ a) (ha' : a < 2 ^ 53) (hc : 0 < c) (hc' : 3 * c < 10 ^ 9) (h : Nearest (a / c) r)

include ha ha' hc hc' h

lemma separated (hn : a ≠ n * c) : 2 * slack < |r - n| := by
  have hpos : (0 : ℚ) < c := by exact_mod_cast hc
  have hslack := slack_pos
  have hfar := one_div_le_abs_sub hc hn
  have hgap : 3 * slack < 1 / c := by
    rw [lt_div_iff₀ hpos]
    exact slack_mul_lt hc'
  rcases ha.eq_or_lt with rfl | ha
  · rw [Int.cast_zero, zero_div] at h hfar
    rw [h.eq .zero]
    linarith
  · obtain ⟨e, hmin, hmax, hlow, hhigh, hsmall⟩ := exists_scale ha ha' hc (by omega)
    have herror := h.error hmin hlow hhigh
    have htriangle := abs_sub_le ((a : ℚ) / c) r n
    rw [abs_sub_comm _ r] at htriangle
    by_cases hcoarse : slack < 2 ^ (e - 53)
    · -- the two differ, and both are multiples of `2 ^ (e - 52)`
      have hne : r ≠ n := by
        rintro rfl
        rw [sub_self, abs_zero] at htriangle
        linarith
      have hunit : (2 : ℚ) ^ (e - 52) = 2 * 2 ^ (e - 53) := by
        rw [show e - 52 = e - 53 + 1 by omega, zpow_add_one₀ two_ne_zero, mul_comm]
      obtain ⟨m, hm⟩ := h.1.multiple (h.ge (representable_two_zpow (by omega)) hlow)
      have hn' := zpow_of_le n (by omega : e - 52 ≤ 0)
      rw [zpow_zero, mul_one] at hn'
      rw [hm, hn'] at hne ⊢
      have := two_zpow_le_abs_sub hne
      linarith
    · linarith

lemma floor_slack (hz : Nearest (r + slack) z) : ⌊z⌋ = a / c := by
  have hclose := hz.2 r h.1
  rw [sub_add_cancel_left, abs_neg, abs_of_pos slack_pos, abs_le] at hclose
  obtain ⟨hbelow, habove⟩ := Int.floor_eq_iff.mp (floor_nearest ha ha' hc h)
  have hne : a ≠ (a / c + 1) * c := (Int.lt_ediv_add_one_mul_self a hc).ne
  have hfar := separated ha ha' hc hc' h hne
  push_cast at hfar
  rw [abs_sub_comm, abs_of_nonneg (by linarith)] at hfar
  exact Int.floor_eq_iff.mpr ⟨by linarith, by linarith⟩

lemma ceil_slack (hz : Nearest (r - slack) z) : ⌈z⌉ = ⌈(a / c : ℚ)⌉ := by
  have hpos : (0 : ℚ) < c := by exact_mod_cast hc
  have hclose := hz.2 r h.1
  rw [sub_sub_cancel, abs_of_pos slack_pos, abs_le] at hclose
  have hfirst : 0 ≤ ⌈(a / c : ℚ)⌉ := Int.ceil_nonneg (by positivity)
  have hlast : ⌈(a / c : ℚ)⌉ ≤ a := by
    have hone : (1 : ℚ) ≤ c := by exact_mod_cast hc
    exact Int.ceil_le.mpr (div_le_self (by exact_mod_cast ha) hone)
  have hbounds := Int.ceil_eq_iff.mp (rfl : ⌈(a / c : ℚ)⌉ = _)
  generalize ⌈(a / c : ℚ)⌉ = m at *
  have hbelow : ((m - 1 : ℤ) : ℚ) ≤ r := by
    refine h.ge (representable_int (by rw [abs_le]; omega)) ?_
    push_cast
    linarith
  have habove : r ≤ m := h.le (representable_int (by rw [abs_le]; omega)) hbounds.2
  have hne : a ≠ (m - 1) * c := by
    rintro rfl
    rw [Int.cast_mul, mul_div_cancel_right₀ _ hpos.ne'] at hbounds
    push_cast at hbounds
    linarith
  have hfar := separated ha ha' hc hc' h hne
  push_cast at hfar hbelow
  rw [abs_of_nonneg (by linarith)] at hfar
  exact Int.ceil_eq_iff.mpr ⟨by linarith, by linarith⟩

lemma abs_lt_slack_iff (hn : |n - r| ≤ 1 / 2) (hz : Nearest (r - n) z) : |z| < slack ↔ c ∣ a := by
  constructor
  · intro hclose
    by_contra hdvd
    have hne : a ≠ n * c := fun heq => hdvd ⟨n, heq.trans (mul_comm _ _)⟩
    have hfar := separated ha ha' hc hc' h hne
    obtain ⟨hlow, hhigh⟩ := abs_lt.mp hclose
    have hslack := slack_pos
    rcases abs_cases (r - n) with ⟨hsign, -⟩ | ⟨hsign, -⟩ <;> rw [hsign] at hfar
    · have := hz.ge representable_slack (by linarith)
      linarith
    · have := hz.le representable_slack.neg (by linarith)
      linarith
  · rintro ⟨k, rfl⟩
    have hpos : (0 : ℚ) < c := by exact_mod_cast hc
    have hk : |k| ≤ 2 ^ 53 := by
      rw [abs_of_nonneg (nonneg_of_mul_nonneg_right ha hc)]
      nlinarith
    rw [Int.cast_mul, mul_div_cancel_left₀ _ hpos.ne'] at h
    rw [h.eq (representable_int hk)] at hn hz
    rw [eq_of_abs_sub_le_half hn, sub_self] at hz
    rw [hz.eq .zero, abs_zero]
    exact slack_pos

end Steps

section Whole

variable {d : Dimension} {x y s : Float} {a b c : ℤ}

lemma slack_lt_half : slack < 1 / 2 := by
  rw [slack]
  norm_num

variable (hx : value? x = some (a : ℚ)) (hy : value? y = some (b : ℚ)) (hs : value? s = some (c : ℚ))
  (hab : a ≤ b) (hwidth : b - a < 2 ^ 53) (hc : 0 < c) (hc' : 3 * c < 10 ^ 9)

include hx hy hs hab hwidth hc

lemma value?_steps :
    ∃ r, value? ((y - x) / s) = some r ∧ Nearest ((b - a : ℤ) / c) r ∧ 0 ≤ r ∧ r ≤ 2 ^ 53 := by
  have hc₁ : (1 : ℚ) ≤ c := by exact_mod_cast hc
  have hlow : (0 : ℚ) ≤ (b - a : ℤ) := by
    rw [Int.cast_nonneg_iff]
    omega
  have hhigh : ((b - a : ℤ) : ℚ) ≤ (2 ^ 53 : ℤ) := Int.cast_le.mpr hwidth.le
  have hq₀ : (0 : ℚ) ≤ (b - a : ℤ) / c := div_nonneg hlow (by linarith)
  have hq₁ : (b - a : ℤ) / (c : ℚ) ≤ (2 ^ 53 : ℤ) := (div_le_self hlow hc₁).trans hhigh
  have hdifference := value?_sub hy hx (by rw [abs_of_nonneg (by omega)]; exact hwidth.le)
  have hfinite : |(b - a : ℤ) / (c : ℚ)| ≤ greatest := by
    rw [abs_of_nonneg hq₀]
    apply le_greatest
    push_cast at hq₁ ⊢
    linarith
  obtain ⟨r, hr, hnearest⟩ := (rounded_div hdifference hs (by linarith)).finite hfinite
  have hupper := hnearest.le (representable_int (by norm_num)) hq₁
  exact ⟨r, hr, hnearest, hnearest.ge .zero hq₀, by exact_mod_cast hupper⟩

include hc'

omit hx hs in
lemma onGrid_iff (hlower : value? d.lower = some (a : ℚ)) (hs : value? d.spacing = some (c : ℚ)) :
    onGrid d y = true ↔ c ∣ b - a := by
  obtain ⟨r, hr, hnearest, -⟩ := value?_steps hlower hy hs hab hwidth hc
  obtain ⟨n, hn, hclose⟩ := value?_round hr
  have hfinite : |r - n| ≤ greatest := by
    rw [abs_sub_comm]
    exact le_greatest (hclose.trans (by norm_num))
  obtain ⟨z, hz, hdistance⟩ := (rounded_sub hr hn).finite hfinite
  simp only [onGrid, decide_eq_true_iff, lt_iff (value?_abs hz) value?_tolerance]
  exact abs_lt_slack_iff (by omega) hwidth hc hc' hnearest hclose hdistance

lemma value?_firstStep :
    value? (ceil ((y - x) / s - tolerance)) = some (⌈((b - a : ℤ) / c : ℚ)⌉ : ℚ) := by
  obtain ⟨r, hr, hnearest, hlow, hhigh⟩ := value?_steps hx hy hs hab hwidth hc
  have hfinite : |r - slack| ≤ greatest := by
    apply le_greatest
    rw [abs_le]
    constructor <;> linarith [slack_pos, slack_lt_half]
  obtain ⟨z, hz, hmoved⟩ := (rounded_sub hr value?_tolerance).finite hfinite
  rw [value?_ceil hz, ceil_slack (by omega) hwidth hc hc' hnearest hmoved]

lemma value?_lastPoint (ha : -2 ^ 53 ≤ a) (hb : b ≤ 2 ^ 53) :
    value? (lastPoint x y s) = some ((a + (b - a) / c * c : ℤ) : ℚ) := by
  obtain ⟨r, hr, hnearest, hlow, hhigh⟩ := value?_steps hx hy hs hab hwidth hc
  have hfinite : |r + slack| ≤ greatest := by
    apply le_greatest
    rw [abs_le]
    constructor <;> linarith [slack_pos, slack_lt_half]
  obtain ⟨z, hz, hmoved⟩ := (rounded_add hr value?_tolerance).finite hfinite
  have hz₀ : 0 ≤ z := hmoved.ge .zero (by linarith [slack_pos])
  have htrunc := value?_trunc hz
  rw [truncated_of_nonneg hz₀, floor_slack (by omega) hwidth hc hc' hnearest hmoved] at htrunc
  have hsteps : 0 ≤ (b - a) / c * c := Int.mul_nonneg (Int.ediv_nonneg (by omega) hc.le) hc.le
  have hreach : (b - a) / c * c ≤ b - a := Int.ediv_mul_le _ hc.ne'
  have hproduct := value?_mul htrunc hs (by rw [abs_of_nonneg hsteps]; omega)
  exact value?_add hx hproduct (by rw [abs_le]; omega)

end Whole

end Grid

end TensorSchema
