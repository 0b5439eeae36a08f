import Mathlib
import TensorSchema.Proofs.Dimension.Points

namespace TensorSchema

open Double

namespace Grid

def Holds (lower upper spacing v : ℤ) : Prop := lower ≤ v ∧ v ≤ upper ∧ spacing ∣ v - lower

section Progression

variable {a b s a' b' s' first v : ℤ}

def Shared (a b s a' b' s' v : ℤ) : Prop := Holds a b s v ∧ Holds a' b' s' v

def Meets (a s a' s' stop n : ℤ) : Prop := a + n * s ≤ stop ∧ s' ∣ a + n * s - a'

lemma shared_of_meets {n : ℤ} (hfirst : ∀ n, first ≤ n ↔ max a a' ≤ a + n * s) (hn : first ≤ n)
    (h : Meets a s a' s' (min b b') n) : Shared a b s a' b' s' (a + n * s) := by
  obtain ⟨hlow, hlow'⟩ := max_le_iff.mp ((hfirst n).mp hn)
  obtain ⟨hhigh, hhigh'⟩ := le_min_iff.mp h.1
  exact ⟨⟨hlow, hhigh, n, by ring⟩, hlow', hhigh', h.2⟩

lemma meets_of_shared (hfirst : ∀ n, first ≤ n ↔ max a a' ≤ a + n * s) (h : Shared a b s a' b' s' v) :
    ∃ n, v = a + n * s ∧ first ≤ n ∧ Meets a s a' s' (min b b') n := by
  obtain ⟨⟨hlow, hhigh, n, hn⟩, hlow', hhigh', hdvd⟩ := h
  obtain rfl : v = a + n * s := by rw [mul_comm, ← hn]; ring
  exact ⟨n, rfl, (hfirst n).mpr (max_le hlow hlow'), le_min hhigh hhigh', hdvd⟩

variable {period : ℤ} (hfirst : ∀ n, first ≤ n ↔ max a a' ≤ a + n * s) (hperiod : 0 < period)
  (hlcm : (s.lcm s' : ℤ) = period * s)

include hfirst hperiod hlcm

lemma shared_window (h : Shared a b s a' b' s' v) :
    ∃ j : ℕ, j < period ∧ Meets a s a' s' (min b b') (first + j) := by
  obtain ⟨n, rfl, hn, hhigh, hdvd⟩ := meets_of_shared hfirst h
  have hrest := Int.emod_nonneg (n - first) hperiod.ne'
  have hlt := Int.emod_lt_of_pos (n - first) hperiod
  have hsplit := Int.emod_add_mul_ediv (n - first) period
  have hturns : 0 ≤ (n - first) / period := Int.ediv_nonneg (by omega) hperiod.le
  generalize (n - first) / period = turns at *
  obtain ⟨j, hj⟩ := Int.eq_ofNat_of_zero_le hrest
  rw [hj] at hlt hsplit
  have hmoved : a + (first + j) * s = a + n * s - turns * s.lcm s' := by
    rw [hlcm, show n = first + j + period * turns by omega]
    ring
  refine ⟨j, hlt, ?_, ?_⟩
  · rw [hmoved]
    have : 0 ≤ turns * (s.lcm s' : ℤ) := Int.mul_nonneg hturns (Int.natCast_nonneg _)
    omega
  · rw [hmoved, sub_right_comm]
    exact Int.dvd_sub hdvd (Dvd.dvd.mul_left (Int.dvd_lcm_right s s') turns)

lemma shared_progression {j : ℕ} {lower : ℤ} (hs : 0 < s) (hj : j < period)
    (hlower : lower = a + (first + j) * s) (h : Meets a s a' s' (min b b') (first + j)) :
    Shared a b s a' b' s' v ↔
      ∃ i : ℕ, (i : ℤ) < (min b b' - lower) / s.lcm s' + 1 ∧ v = lower + i * s.lcm s' := by
  have hpos : 0 < (s.lcm s' : ℤ) := by
    rw [hlcm]
    exact Int.mul_pos hperiod hs
  obtain ⟨⟨hlow, -, hdvd⟩, hlow', -, hdvd'⟩ : Shared a b s a' b' s' lower :=
    hlower ▸ shared_of_meets hfirst (by omega) h
  constructor
  · intro hv
    obtain ⟨n, hn, hleast, hhigh, -⟩ := meets_of_shared hfirst hv
    rw [← hn] at hhigh
    obtain ⟨⟨-, -, hv⟩, -, -, hv'⟩ := hv
    obtain ⟨turns, hturns⟩ : (s.lcm s' : ℤ) ∣ v - lower := by
      refine Int.coe_lcm_dvd ?_ ?_
      · simpa using Int.dvd_sub hv hdvd
      · simpa using Int.dvd_sub hv' hdvd'
    have hsame : n = first + j + period * turns := by
      have : (n - (first + j)) * s = period * turns * s := by
        rw [mul_right_comm, ← hlcm, ← hturns, hn, hlower]
        ring
      have := mul_right_cancel₀ hs.ne' this
      omega
    -- an earlier turn would lie below the first step
    have hnonneg : 0 ≤ turns := by
      by_contra hneg
      have : period * turns ≤ period * -1 := Int.mul_le_mul_of_nonneg_left (by omega) hperiod.le
      omega
    obtain ⟨i, rfl⟩ := Int.eq_ofNat_of_zero_le hnonneg
    refine ⟨i, ?_, by rw [mul_comm, ← hturns]; ring⟩
    rw [Int.lt_add_one_iff, Int.le_ediv_iff_mul_le hpos, mul_comm, ← hturns]
    omega
  · rintro ⟨i, hi, rfl⟩
    rw [Int.lt_add_one_iff, Int.le_ediv_iff_mul_le hpos] at hi
    have hturns : 0 ≤ (i : ℤ) * s.lcm s' := Int.mul_nonneg (Int.natCast_nonneg i) hpos.le
    have hleft : s ∣ (i : ℤ) * s.lcm s' := Dvd.dvd.mul_left (Int.dvd_lcm_left s s') _
    have hright : s' ∣ (i : ℤ) * s.lcm s' := Dvd.dvd.mul_left (Int.dvd_lcm_right s s') _
    refine ⟨⟨by omega, by omega, ?_⟩, by omega, by omega, ?_⟩
    · rw [add_sub_right_comm]
      exact Int.dvd_add hdvd hleft
    · rw [add_sub_right_comm]
      exact Int.dvd_add hdvd' hright

end Progression

section Spacing

lemma euclid_eq_gcd {fuel a b : ℕ} (h : b ≤ fuel) : euclid fuel a b = a.gcd b := by
  induction fuel generalizing a b with
  | zero =>
    obtain rfl := Nat.le_zero.mp h
    exact (Nat.gcd_zero_right a).symm
  | succ fuel ih =>
    rw [euclid]
    split
    next hb => rw [hb, Nat.gcd_zero_right]
    next hb =>
      have hlt := Nat.mod_lt a (Nat.pos_of_ne_zero hb)
      rw [ih (by omega), Nat.gcd_comm b, ← Nat.gcd_rec, Nat.gcd_comm]

lemma commonMultiple?_eq (a b : ℕ) :
    commonMultiple? a b = if a.lcm b < 0x8000000000000000 then some (a.lcm b) else none := by
  have hlcm : a / commonDivisor a b * b = a.lcm b := by
    rw [commonDivisor, euclid_eq_gcd le_rfl, Nat.lcm, Nat.div_mul_right_comm (Nat.gcd_dvd_left a b)]
  simp only [commonMultiple?, hlcm]

lemma wholeSpacing?_eq {x : Float} {n : ℕ} (hx : whole? x = some (n : ℤ))
    (hn : n < 0x8000000000000000) : wholeSpacing? x = some n := by
  have hn' : (n : ℤ) < 0x8000000000000000 := by exact_mod_cast hn
  simp only [wholeSpacing?, hx, hn', if_true, Int.toNat_natCast]

lemma sub_lt_tolerance_iff {x y : Float} {a b : ℕ} (hx : whole? x = some (a : ℤ))
    (hy : whole? y = some (b : ℤ)) (ha : a < 2 ^ 63) (hb : b < 2 ^ 63) :
    (x - y).abs < tolerance ↔ a = b := by
  have hfinite : |((a - b : ℤ) : ℚ)| ≤ greatest := by
    apply le_greatest
    have habs : |(a - b : ℤ)| ≤ 2 ^ 200 := by
      rw [abs_le]
      omega
    exact_mod_cast habs
  have hsub := rounded_sub (whole?_eq_some.mp hx) (whole?_eq_some.mp hy)
  rw [← Int.cast_sub] at hsub
  obtain ⟨r, hr, hnearest⟩ := hsub.finite hfinite
  rw [lt_iff (value?_abs hr) value?_tolerance]
  constructor
  · intro hlt
    by_contra hne
    have hone := hnearest.one_le_abs (by omega)
    have hhalf := slack_lt_half
    linarith
  · rintro rfl
    rw [sub_self, Int.cast_zero] at hnearest
    rw [hnearest.eq .zero, abs_zero]
    exact slack_pos

lemma value?_commonSpacing {x y : Float} {s s' : ℤ} (hx : whole? x = some s) (hy : whole? y = some s')
    (hs : 0 < s) (hs' : 0 < s') (hlcm : (s.lcm s' : ℤ) ≤ 2 ^ 53) :
    ∃ z, commonSpacing? x y = some z ∧ value? z = some ((s.lcm s' : ℤ) : ℚ) := by
  obtain ⟨m, rfl⟩ := Int.eq_ofNat_of_zero_le hs.le
  obtain ⟨n, rfl⟩ := Int.eq_ofNat_of_zero_le hs'.le
  have hmost : m.lcm n ≤ 2 ^ 53 := by exact_mod_cast hlcm
  have hpos : 0 < m.lcm n := Nat.lcm_pos (by omega) (by omega)
  have hm := Nat.le_of_dvd hpos (Nat.dvd_lcm_left m n)
  have hn := Nat.le_of_dvd hpos (Nat.dvd_lcm_right m n)
  have hsame := sub_lt_tolerance_iff hx hy (by omega) (by omega)
  rw [Int.lcm_natCast_natCast, commonSpacing?, wholeSpacing?_eq hx (by omega),
    wholeSpacing?_eq hy (by omega)]
  by_cases h : m = n
  · refine ⟨x, if_pos (hsame.mpr h), ?_⟩
    rw [← h, Nat.lcm_self]
    exact whole?_eq_some.mp hx
  · refine ⟨_, (if_neg (mt hsame.mp h)).trans ?_, value?_ofMagnitude false hmost⟩
    dsimp only
    rw [commonMultiple?_eq, if_pos (by omega)]
    rfl

end Spacing

section Search

structure Search (left right : Dimension) (x y : Float) (a s a' s' first stop : ℤ) : Prop where
  lower_eq : value? left.lower = some (a : ℚ)
  lower_eq' : value? right.lower = some (a' : ℚ)
  spacing_eq : value? left.spacing = some (s : ℚ)
  spacing_eq' : value? right.spacing = some (s' : ℚ)
  first_eq : value? x = some (first : ℚ)
  stop_eq : value? y = some (stop : ℚ)
  spacing_pos : 0 < s
  spacing_pos' : 0 < s'
  spacing_lt : 3 * s < 10 ^ 9
  spacing_lt' : 3 * s' < 10 ^ 9
  lower_ge : -2 ^ 53 ≤ a
  lower_le : a ≤ 2 ^ 53
  stop_lt : stop < 2 ^ 53
  width_lt : stop - a < 2 ^ 53
  width_lt' : stop - a' < 2 ^ 53
  first_nonneg : 0 ≤ first
  first_le : first ≤ 2 ^ 53
  first_reaches : ∀ n, first ≤ n → a' ≤ a + n * s

namespace Search

variable {left right : Dimension} {x y : Float} {a s a' s' first stop : ℤ} {k : ℕ}
  (h : Search left right x y a s a' s' first stop)

include h

lemma le_stop_iff {z : Float} {w : ℚ} (hz : value? z = some w) :
    (w ≤ stop → z ≤ y + tolerance) ∧ (stop + 1 ≤ w → ¬ z ≤ y + tolerance) := by
  have hslack := slack_pos
  have hhalf := slack_lt_half
  have hstop' : (stop : ℚ) < 2 ^ 53 := by exact_mod_cast h.stop_lt
  have hfinite : |(stop : ℚ) + slack| ≤ greatest := by
    have hbound := (neg_le_abs (stop : ℚ)).trans (abs_le_greatest h.stop_eq)
    have hlarge : (2 : ℚ) ^ 53 + 1 ≤ greatest := le_greatest (by norm_num)
    rw [abs_le]
    constructor <;> linarith
  obtain ⟨r, hr, hnearest⟩ := (rounded_add h.stop_eq value?_tolerance).finite hfinite
  have hclose := hnearest.2 stop (representable_of_value? h.stop_eq)
  rw [sub_add_cancel_left, abs_neg, abs_of_pos hslack, abs_le] at hclose
  rw [le_iff hz hr]
  exact ⟨fun hle => by linarith, fun hlt => by linarith⟩

lemma value?_point (hk : k ≤ 2 ^ 53) (hreach : a + (first + k) * s ≤ stop) :
    value? (left.lower + (x + ofMagnitude false k) * left.spacing) =
      some ((a + (first + k) * s : ℤ) : ℚ) := by
  have hcount : value? (ofMagnitude false k) = some ((k : ℤ) : ℚ) := value?_ofMagnitude false hk
  have hfirst := h.first_nonneg
  have hlow := h.lower_ge
  have hstop := h.stop_lt
  have hwidth := h.width_lt
  have hn : first + k ≤ (first + k) * s := le_mul_of_one_le_right (by omega) h.spacing_pos
  have hsum := value?_add h.first_eq hcount (by rw [abs_le]; omega)
  have hproduct := value?_mul hsum h.spacing_eq (by rw [abs_le]; omega)
  exact value?_add h.lower_eq hproduct (by rw [abs_le]; omega)

lemma steps_bounded (hk : k ≤ 2 ^ 53) :
    ∃ r, value? (x + ofMagnitude false k) = some r ∧ (min (first + k) (2 ^ 53) : ℤ) ≤ r ∧ r ≤ 2 ^ 54 := by
  have hcount : value? (ofMagnitude false k) = some ((k : ℤ) : ℚ) := value?_ofMagnitude false hk
  have hlow := h.first_nonneg
  have hhigh := h.first_le
  have hsum : (first : ℚ) + (k : ℤ) ≤ 2 ^ 54 := by exact_mod_cast (by omega : first + k ≤ 2 ^ 54)
  have hmin : ((min (first + k) (2 ^ 53) : ℤ) : ℚ) ≤ first + (k : ℤ) := by
    rw [← Int.cast_add, Int.cast_le]
    exact min_le_left _ _
  exact (rounded_add h.first_eq hcount).bounded (by rw [abs_le]; omega) hmin hsum (by norm_num)

lemma product_bounded (hk : k ≤ 2 ^ 53) :
    ∃ p, value? ((x + ofMagnitude false k) * left.spacing) = some p ∧
      (min ((first + k) * s) (2 ^ 53) : ℤ) ≤ p ∧ p ≤ 2 ^ 107 := by
  obtain ⟨r, hr, hlow, hhigh⟩ := h.steps_bounded hk
  have hfirst := h.first_nonneg
  have hs₀ : (0 : ℚ) ≤ s := by exact_mod_cast h.spacing_pos.le
  have hs₁ : (s : ℚ) ≤ 2 ^ 53 := by
    have hlt := h.spacing_lt
    exact_mod_cast (by omega : s ≤ 2 ^ 53)
  have hn : 0 ≤ (first + k) * s := Int.mul_nonneg (by omega) h.spacing_pos.le
  have hmin : min ((first + k) * s) (2 ^ 53) ≤ min (first + k) (2 ^ 53) * s := by
    rcases le_total (first + k) (2 ^ 53) with hle | hle
    · rw [min_eq_left hle]
      exact min_le_left _ _
    · rw [min_eq_right hle]
      exact (min_le_right _ _).trans (le_mul_of_one_le_right (by norm_num) h.spacing_pos)
  have hproduct : ((min ((first + k) * s) (2 ^ 53) : ℤ) : ℚ) ≤ r * s := by
    calc ((min ((first + k) * s) (2 ^ 53) : ℤ) : ℚ)
        ≤ (min (first + k) (2 ^ 53) * s : ℤ) := Int.cast_le.mpr hmin
      _ = (min (first + k) (2 ^ 53) : ℤ) * s := Int.cast_mul _ _
      _ ≤ r * s := mul_le_mul_of_nonneg_right hlow hs₀
  have hproduct' : r * s ≤ 2 ^ 107 := by
    calc r * s ≤ 2 ^ 54 * 2 ^ 53 := mul_le_mul hhigh hs₁ hs₀ (by norm_num)
      _ = 2 ^ 107 := by norm_num
  exact (rounded_mul hr h.spacing_eq).bounded (by rw [abs_le]; omega) hproduct hproduct' (by norm_num)

lemma value?_point_beyond (hk : k ≤ 2 ^ 53) (hbeyond : stop < a + (first + k) * s) :
    ∃ w, value? (left.lower + (x + ofMagnitude false k) * left.spacing) = some w ∧ (stop : ℚ) + 1 ≤ w := by
  obtain ⟨p, hp, hlow, hhigh⟩ := h.product_bounded hk
  have ha₀ := h.lower_ge
  have ha₁ := h.lower_le
  have hstop := h.stop_lt
  have hwidth := h.width_lt
  have hmax : max (stop + 1) (-2 ^ 53) ≤ a + min ((first + k) * s) (2 ^ 53) := by
    have hfirst := h.first_nonneg
    have hn : 0 ≤ (first + k) * s := Int.mul_nonneg (by omega) h.spacing_pos.le
    omega
  have hsum : ((max (stop + 1) (-2 ^ 53) : ℤ) : ℚ) ≤ a + p := by
    calc ((max (stop + 1) (-2 ^ 53) : ℤ) : ℚ)
        ≤ (a + min ((first + k) * s) (2 ^ 53) : ℤ) := Int.cast_le.mpr hmax
      _ = a + (min ((first + k) * s) (2 ^ 53) : ℤ) := Int.cast_add _ _
      _ ≤ a + p := by linarith
  have hsum' : a + p ≤ 2 ^ 108 := by
    have ha : (a : ℚ) ≤ 2 ^ 53 := by exact_mod_cast ha₁
    norm_num at ha hhigh ⊢
    linarith
  obtain ⟨w, hw, hle, -⟩ :=
    (rounded_add h.lower_eq hp).bounded (by rw [abs_le]; omega) hsum hsum' (by norm_num)
  refine ⟨w, hw, ?_⟩
  calc (stop : ℚ) + 1 = (stop + 1 : ℤ) := by push_cast; rfl
    _ ≤ (max (stop + 1) (-2 ^ 53) : ℤ) := Int.cast_le.mpr (le_max_left _ _)
    _ ≤ w := hle

lemma firstShared_step (hk : k ≤ 2 ^ 53) (count : ℕ) :
    (∃ v, firstShared left right x y (count + 1) k = some v ∧
      value? v = some ((a + (first + k) * s : ℤ) : ℚ) ∧ Meets a s a' s' stop (first + k)) ∨
    ¬ Meets a s a' s' stop (first + k) ∧
      (firstShared left right x y (count + 1) k = firstShared left right x y count (k + 1) ∨
        stop < a + (first + k) * s ∧ firstShared left right x y (count + 1) k = none) := by
  rw [firstShared]
  by_cases hreach : a + (first + k) * s ≤ stop
  · have hpoint := h.value?_point hk hreach
    have hlow := h.first_reaches (first + k) (by omega)
    have hwidth := h.width_lt'
    have hgrid := onGrid_iff hpoint hlow (by omega) h.spacing_pos' h.spacing_lt' h.lower_eq' h.spacing_eq'
    have hle := (h.le_stop_iff hpoint).1 (by exact_mod_cast hreach)
    by_cases hdvd : s' ∣ a + (first + k) * s - a'
    · left
      simp only [hle, hgrid.mpr hdvd, if_true]
      exact ⟨_, rfl, hpoint, hreach, hdvd⟩
    · right
      have hmiss := Bool.eq_false_iff.mpr (hgrid.not.mpr hdvd)
      simp only [hle, hmiss, if_true, Bool.false_eq_true, if_false]
      exact ⟨fun hmeets => hdvd hmeets.2, Or.inl trivial⟩
  · obtain ⟨w, hw, hbeyond⟩ := h.value?_point_beyond hk (not_le.mp hreach)
    right
    simp only [(h.le_stop_iff hw).2 hbeyond, if_false]
    exact ⟨fun hmeets => hreach hmeets.1, Or.inr ⟨not_le.mp hreach, trivial⟩⟩

lemma firstShared_some {count : ℕ} {v : Float} (hk : k + count ≤ 2 ^ 53)
    (hv : firstShared left right x y count k = some v) :
    ∃ j : ℕ, j < k + count ∧ value? v = some ((a + (first + j) * s : ℤ) : ℚ) ∧
      Meets a s a' s' stop (first + j) := by
  induction count generalizing k with
  | zero => cases hv
  | succ count ih =>
    rcases h.firstShared_step (k := k) (by omega) count with
      ⟨w, hw, hvalue, hmeets⟩ | ⟨-, hnext | ⟨-, hnone⟩⟩
    · obtain rfl := Option.some.inj (hw.symm.trans hv)
      exact ⟨k, by omega, hvalue, hmeets⟩
    · obtain ⟨j, hj, hvalue, hmeets⟩ := ih (k := k + 1) (by omega) (hnext.symm.trans hv)
      exact ⟨j, by omega, hvalue, hmeets⟩
    · cases hnone.symm.trans hv

lemma firstShared_none {count j : ℕ} (hk : k + count ≤ 2 ^ 53)
    (hnone : firstShared left right x y count k = none) (hj : k ≤ j) (hj' : j < k + count) :
    ¬ Meets a s a' s' stop (first + j) := by
  induction count generalizing k with
  | zero => omega
  | succ count ih =>
    rcases h.firstShared_step (k := k) (by omega) count with
      ⟨w, hw, -⟩ | ⟨hmiss, hnext | ⟨hbeyond, -⟩⟩
    · cases hw.symm.trans hnone
    · rcases hj.eq_or_lt with rfl | hlt
      · exact hmiss
      · exact ih (k := k + 1) (by omega) (hnext.symm.trans hnone) hlt (by omega)
    · -- the points after `stop` are all beyond it
      intro hmeets
      have : (first + k) * s ≤ (first + j) * s :=
        Int.mul_le_mul_of_nonneg_right (by omega) h.spacing_pos.le
      have := hmeets.1
      omega

end Search

end Search

structure WholeGrid (d : Dimension) (lower upper spacing : ℤ) : Prop where
  implicit : d.isImplicit = true
  lower_eq : whole? d.lower = some lower
  upper_eq : whole? d.upper = some upper
  spacing_eq : whole? d.spacing = some spacing
  spacing_pos : 0 < spacing

/-- What keeps the search exact: the lower bounds and the end of the shared range are less than `2 ^ 53`
apart, and the tolerance is less than a third of the least fraction of a step. -/
structure Precise (a b s a' b' s' : ℤ) : Prop where
  lower_abs : |a| ≤ 2 ^ 53
  lower_abs' : |a'| ≤ 2 ^ 53
  lower_dist : |a - a'| < 2 ^ 53
  stop_lt : min b b' < 2 ^ 53
  stop_dist : min b b' - min a a' < 2 ^ 53
  spacing_lt : 3 * (s.lcm s' : ℤ) < 10 ^ 9

section Intersection

variable {left right : Dimension} {x : Float} {a b s a' b' s' : ℤ} (hleft : WholeGrid left a b s)
  (hright : WholeGrid right a' b' s') (hprecise : Precise a b s a' b' s')

lemma ceil_le_iff {d c n : ℤ} (hc : 0 < c) : ⌈(d / c : ℚ)⌉ ≤ n ↔ d ≤ n * c := by
  have hpos : (0 : ℚ) < c := by exact_mod_cast hc
  rw [Int.ceil_le, div_le_iff₀ hpos]
  exact_mod_cast Iff.rfl

include hleft in
lemma first_le_iff (a' n : ℤ) : ⌈((max a a' - a : ℤ) / s : ℚ)⌉ ≤ n ↔ max a a' ≤ a + n * s := by
  rw [ceil_le_iff hleft.spacing_pos, sub_le_iff_le_add']

include hleft hright

lemma lcm_spacing_pos : 0 < (s.lcm s' : ℤ) := by
  exact_mod_cast Int.lcm_pos hleft.spacing_pos.ne' hright.spacing_pos.ne'

lemma period_exists : ∃ period : ℤ, 0 < period ∧ (s.lcm s' : ℤ) = period * s := by
  obtain ⟨period, hperiod⟩ := Int.dvd_lcm_left s s'
  rw [mul_comm] at hperiod
  have hpos := lcm_spacing_pos hleft hright
  exact ⟨period, pos_of_mul_pos_left (hperiod ▸ hpos) hleft.spacing_pos.le, hperiod⟩

include hprecise

lemma spacing_bounds : 3 * s < 10 ^ 9 ∧ 3 * s' < 10 ^ 9 := by
  have hlt := hprecise.spacing_lt
  have hpos := lcm_spacing_pos hleft hright
  have := Int.le_of_dvd hpos (Int.dvd_lcm_left s s')
  have := Int.le_of_dvd hpos (Int.dvd_lcm_right s s')
  omega

lemma search_starts : Search left right
    (ceil ((maxNumber left.lower right.lower - left.lower) / left.spacing - tolerance))
    (minNumber left.upper right.upper) a s a' s' ⌈((max a a' - a : ℤ) / s : ℚ)⌉ (min b b') := by
  obtain ⟨hs, hs'⟩ := spacing_bounds hleft hright hprecise
  have hlower := whole?_eq_some.mp hleft.lower_eq
  have hlower' := whole?_eq_some.mp hright.lower_eq
  have hspacing := whole?_eq_some.mp hleft.spacing_eq
  have hstart : value? (maxNumber left.lower right.lower) = some ((max a a' : ℤ) : ℚ) := by
    rw [value?_maxNumber hlower hlower', Int.cast_max]
  have hstop : value? (minNumber left.upper right.upper) = some ((min b b' : ℤ) : ℚ) := by
    rw [value?_minNumber (whole?_eq_some.mp hleft.upper_eq) (whole?_eq_some.mp hright.upper_eq),
      Int.cast_min]
  obtain ⟨hlow, hhigh⟩ := abs_le.mp hprecise.lower_abs
  have hdist := abs_lt.mp hprecise.lower_dist
  have hwidth := hprecise.stop_dist
  have hpos := hleft.spacing_pos
  have hfirst := first_le_iff hleft a'
  exact {
    lower_eq := hlower
    lower_eq' := hlower'
    spacing_eq := hspacing
    spacing_eq' := whole?_eq_some.mp hright.spacing_eq
    first_eq := value?_firstStep hlower hstart hspacing (le_max_left a a') (by omega) hpos hs
    stop_eq := hstop
    spacing_pos := hpos
    spacing_pos' := hright.spacing_pos
    spacing_lt := hs
    spacing_lt' := hs'
    lower_ge := hlow
    lower_le := hhigh
    stop_lt := hprecise.stop_lt
    width_lt := by omega
    width_lt' := by omega
    first_nonneg := by
      apply Int.ceil_nonneg
      have hwidth₀ : (0 : ℚ) ≤ (max a a' - a : ℤ) := Int.cast_nonneg_iff.mpr (by omega)
      have hpos' : (0 : ℚ) ≤ s := by exact_mod_cast hpos.le
      exact div_nonneg hwidth₀ hpos'
    first_le := by
      rw [hfirst]
      have : (2 : ℤ) ^ 53 ≤ 2 ^ 53 * s := le_mul_of_one_le_right (by norm_num) hpos
      omega
    first_reaches := fun n hn => (le_max_right a a').trans ((hfirst n).mp hn) }

omit hright in
lemma searchLength {period : ℤ} (hx : value? x = some ((s.lcm s' : ℤ) : ℚ)) (hperiod : 0 < period)
    (hlcm : (s.lcm s' : ℤ) = period * s) :
    (max (clampWhole 64 (round (x / left.spacing))) 1).toNat = period.toNat ∧ period ≤ 2 ^ 52 := by
  have hlt := hprecise.spacing_lt
  have hle : period ≤ period * s := le_mul_of_one_le_right hperiod.le hleft.spacing_pos
  rw [hlcm] at hx
  have hsteps := value?_div hx (whole?_eq_some.mp hleft.spacing_eq) hleft.spacing_pos.ne' (by
    rw [abs_of_pos hperiod]
    omega)
  obtain ⟨n, hn, hclose⟩ := value?_round hsteps
  obtain rfl := eq_of_abs_sub_le_half hclose
  rw [clampWhole_intCast hn (by omega) (by omega)]
  omega

lemma sharedBounds?_some {lower upper : Float} (hx : value? x = some ((s.lcm s' : ℤ) : ℚ))
    (h : sharedBounds? left right x = some (lower, upper)) :
    ∃ v : ℤ, value? lower = some (v : ℚ) ∧
      value? upper = some ((v + (min b b' - v) / s.lcm s' * s.lcm s' : ℤ) : ℚ) ∧
      v ≤ min b b' ∧ min b b' - v < 2 ^ 53 ∧
      ∀ w, Shared a b s a' b' s' w ↔
        ∃ i : ℕ, (i : ℤ) < (min b b' - v) / s.lcm s' + 1 ∧ w = v + i * s.lcm s' := by
  obtain ⟨period, hperiod, hlcm⟩ := period_exists hleft hright
  obtain ⟨hlength, hmost⟩ := searchLength hleft hprecise hx hperiod hlcm
  have hsearch := search_starts hleft hright hprecise
  have hfirst := first_le_iff hleft a'
  simp only [sharedBounds?, hlength, Option.map_eq_some_iff, Prod.mk.injEq] at h
  obtain ⟨found, hfound, rfl, rfl⟩ := h
  obtain ⟨j, hj, hvalue, hmeets⟩ := hsearch.firstShared_some (by omega) hfound
  have hprogression := fun w =>
    shared_progression (v := w) hfirst hperiod hlcm hleft.spacing_pos (by omega) rfl hmeets
  have hlow : a ≤ a + (⌈((max a a' - a : ℤ) / s : ℚ)⌉ + j) * s :=
    (le_max_left a a').trans ((hfirst _).mp (by omega))
  have hreach := hmeets.1
  have hwidth := hsearch.width_lt
  generalize a + (⌈((max a a' - a : ℤ) / s : ℚ)⌉ + j) * s = v at *
  refine ⟨v, hvalue, ?_, hreach, by omega, hprogression⟩
  have hpos := lcm_spacing_pos hleft hright
  have hge := hsearch.lower_ge
  exact value?_lastPoint hvalue hsearch.stop_eq hx hreach (by omega) hpos hprecise.spacing_lt (by omega)
    hsearch.stop_lt.le

lemma sharedBounds?_none (hx : value? x = some ((s.lcm s' : ℤ) : ℚ))
    (h : sharedBounds? left right x = none) (v : ℤ) : ¬ Shared a b s a' b' s' v := by
  obtain ⟨period, hperiod, hlcm⟩ := period_exists hleft hright
  obtain ⟨hlength, hmost⟩ := searchLength hleft hprecise hx hperiod hlcm
  have hsearch := search_starts hleft hright hprecise
  have hfirst := first_le_iff hleft a'
  simp only [sharedBounds?, hlength, Option.map_eq_none_iff] at h
  intro hv
  obtain ⟨j, hj, hmeets⟩ := shared_window hfirst hperiod hlcm hv
  exact hsearch.firstShared_none (by omega) h (Nat.zero_le j) (by omega) hmeets

end Intersection

/-- Two whole grids intersect in exactly the points that they share; they are disjoint if there are none. -/
theorem intersect_exact {left right : Dimension} {a b s a' b' s' : ℤ} (hleft : WholeGrid left a b s)
    (hright : WholeGrid right a' b' s') (hprecise : Precise a b s a' b' s') :
    (∃ (d : Dimension) (lower spacing : ℤ), left.intersect right = .ok d ∧
      whole? d.lower = some lower ∧ whole? d.spacing = some spacing ∧
      ∀ v, (∃ k : ℕ, (k : ℤ) < d.length.toInt ∧ v = lower + k * spacing) ↔
        Holds a b s v ∧ Holds a' b' s' v) ∨
    left.intersect right = .error (.disjoint left.name right.name) ∧
      ∀ v, ¬ (Holds a b s v ∧ Holds a' b' s' v) := by
  have hlt := hprecise.spacing_lt
  obtain ⟨x, hspacing, hx⟩ := value?_commonSpacing hleft.spacing_eq hright.spacing_eq hleft.spacing_pos
    hright.spacing_pos (by omega)
  have hstep := Dimension.hasStep_of_whole (whole?_eq_some.mp hleft.spacing_eq) hleft.spacing_pos
  have hstep' := Dimension.hasStep_of_whole (whole?_eq_some.mp hright.spacing_eq) hright.spacing_pos
  have hpos := lcm_spacing_pos hleft hright
  simp only [Dimension.intersect, hleft.implicit, hright.implicit, hstep, hstep', hspacing, Bool.not_true,
    Bool.or_self, Bool.false_eq_true, if_false]
  cases hbounds : sharedBounds? left right x with
  | none =>
    right
    exact ⟨rfl, sharedBounds?_none hleft hright hprecise hx hbounds⟩
  | some bounds =>
    left
    obtain ⟨v, hlower, hupper, hreach, hwidth, hshared⟩ :=
      sharedBounds?_some hleft hright hprecise hx hbounds
    have hsteps : 0 ≤ (min b b' - v) / s.lcm s' := Int.ediv_nonneg (by omega) hpos.le
    have hlast : (min b b' - v) / s.lcm s' * s.lcm s' ≤ min b b' - v := Int.ediv_mul_le _ hpos.ne'
    obtain ⟨n, hn, hlength⟩ :=
      Dimension.lengthBetween_of_multiple hlower hx hpos hupper hsteps (by omega)
    refine ⟨.implicit left.name left.type bounds.1 bounds.2 x, v, s.lcm s', ?_, whole?_eq_some.mpr hlower,
      whole?_eq_some.mpr hx, ?_⟩
    · simp only [hn, Option.isNone_some, Bool.false_eq_true, if_false]
    · intro w
      have hlength' : (Dimension.implicit left.name left.type bounds.1 bounds.2 x).length = n := by
        simp [Dimension.length, Dimension.length?, Dimension.implicit, hn]
      rw [hlength', hlength]
      exact (hshared w).symm

theorem offset_intersection : WholeGrid (.implicit "x" .long (-7) 100 6) (-7) 100 6 ∧
    WholeGrid (.implicit "y" .long 3 90 4) 3 90 4 ∧ Precise (-7) 100 6 3 90 4 ∧
    ∃ d lower spacing,
      (Dimension.implicit "x" .long (-7) 100 6).intersect (.implicit "y" .long 3 90 4) = .ok d ∧
      whole? d.lower = some lower ∧ whole? d.spacing = some spacing ∧
      ∀ v, (∃ k : ℕ, (k : ℤ) < d.length.toInt ∧ v = lower + k * spacing) ↔
        Holds (-7) 100 6 v ∧ Holds 3 90 4 v := by
  have hleft : WholeGrid (.implicit "x" .long (-7) 100 6) (-7) 100 6 :=
    ⟨rfl, by decide +kernel, by decide +kernel, by decide +kernel, by norm_num⟩
  have hright : WholeGrid (.implicit "y" .long 3 90 4) 3 90 4 :=
    ⟨rfl, by decide +kernel, by decide +kernel, by decide +kernel, by norm_num⟩
  have hprecise : Precise (-7) 100 6 3 90 4 :=
    ⟨by decide, by decide, by decide, by decide, by decide, by decide⟩
  refine ⟨hleft, hright, hprecise, (intersect_exact hleft hright hprecise).resolve_right ?_⟩
  rintro ⟨-, hnone⟩
  exact hnone 11 ⟨by unfold Holds; decide, by unfold Holds; decide⟩

/-- With a spacing above the inverse of the tolerance, points that are one off count as shared. With bounds
`2 ^ 53` apart, a point that a grid steps over is rounded to. -/
theorem intersect_inexact :
    ((Dimension.implicit "a" .long 0 4000000000 1).intersect
          (.implicit "b" .long (-1) 6000000000 2000000000) =
        .ok (.implicit "a" .long 0 4000000000 2000000000) ∧
      ¬ Holds (-1) 6000000000 2000000000 0 ∧
      Holds 0 4000000000 1 1999999999 ∧ Holds (-1) 6000000000 2000000000 1999999999) ∧
    (Dimension.implicit "a" .long (-4503599627370496) 4503599627370496 3).intersect
        (.implicit "b" .long 4503599627370496 4503599627370496 3) =
      .ok (.implicit "a" .long 4503599627370496 4503599627370496 3) ∧
    ¬ Holds (-4503599627370496) 4503599627370496 3 4503599627370496 := by
  unfold Holds
  decide +kernel

end Grid

end TensorSchema
