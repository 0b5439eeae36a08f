import Mathlib
import TensorSchema.DataType
import TensorSchema.Proofs.Double.Single

namespace TensorSchema.DataType

open Double

def WholeIn (bits : ℕ) (q : ℚ) : Prop := ∃ n : ℤ, q = n ∧ -2 ^ (bits - 1) ≤ n ∧ n ≤ 2 ^ (bits - 1) - 1

def Holds : DataType → ℚ → Prop
  | int, q => WholeIn 32 q
  | long, q => WholeIn 64 q
  | float, q => ∃ y : Float32, singleValue? y = some q
  | double, q => ∃ y : Float, value? y = some q
  | boolean, _ => False
  | string, _ => False

open Classical in
noncomputable def narrowest (q : ℚ) : DataType :=
  if int.Holds q then int
  else if long.Holds q then long
  else if float.Holds q then float
  else double

variable {x : Float} {q : ℚ} {bits : ℕ}

lemma clampWhole_mem (bits : ℕ) (hx : value? x = some q) :
    -2 ^ (bits - 1) ≤ clampWhole bits x ∧ clampWhole bits x ≤ 2 ^ (bits - 1) - 1 := by
  have hpos : (0 : ℤ) < 2 ^ (bits - 1) := pow_pos two_pos _
  rw [clampWhole_eq bits hx]
  omega

lemma two_pow_le (hbits : bits ≤ 64) : (2 : ℤ) ^ (bits - 1) ≤ 2 ^ 63 :=
  pow_le_pow_right₀ one_le_two (by omega)

lemma beq_of_wholeIn (hbits : bits ≤ 64) (hx : value? x = some q) (h : WholeIn bits q) :
    (x == ofInt (clampWhole bits x)) = true := by
  obtain ⟨n, rfl, hlow, hhigh⟩ := h
  have hlimit := two_pow_le hbits
  obtain ⟨r, hr, hnearest⟩ := nearest_ofInt (i := n) (by rw [abs_lt]; omega)
  rw [clampWhole_intCast hx hlow hhigh, beq_iff hx hr]
  exact (hnearest.eq (representable_of_value? hx)).symm

lemma nearest_of_beq (hbits : bits ≤ 64) (hx : value? x = some q)
    (h : (x == ofInt (clampWhole bits x)) = true) : Nearest (clampWhole bits x) q := by
  obtain ⟨hlow, hhigh⟩ := clampWhole_mem bits hx
  have hlimit := two_pow_le hbits
  obtain ⟨r, hr, hnearest⟩ := nearest_ofInt (i := clampWhole bits x) (by rw [abs_lt]; omega)
  rwa [(beq_iff hx hr).mp h]

lemma beq_int_iff (hx : value? x = some q) :
    (x == ofInt (clampWhole 32 x)) = true ↔ int.Holds q := by
  refine ⟨fun h => ?_, beq_of_wholeIn (by norm_num) hx⟩
  obtain ⟨hlow, hhigh⟩ := clampWhole_mem 32 hx
  have hexact : |clampWhole 32 x| ≤ 2 ^ 53 := by
    rw [abs_le]
    omega
  exact ⟨_, (nearest_of_beq (by norm_num) hx h).eq (representable_int hexact), hlow, hhigh⟩

lemma representable_two_pow_63 : Representable (2 ^ 63) := by
  exact_mod_cast representable_two_zpow (e := 63) (by norm_num)

/-- The greatest long is no double: near it doubles are `2 ^ 10` apart, and `2 ^ 63` is the nearest one. -/
lemma value?_greatest_long : value? (ofInt (2 ^ 63 - 1)) = some (2 ^ 63) := by
  obtain ⟨r, hr, hnearest⟩ := nearest_ofInt (i := 2 ^ 63 - 1) (by norm_num)
  have hclose := hnearest.2 _ representable_two_pow_63
  norm_num [abs_le] at hclose
  obtain ⟨n, rfl⟩ := hnearest.1.multiple (e := 62) (by norm_num; linarith)
  rw [show (2 : ℚ) ^ ((62 : ℤ) - 52) = 1024 by norm_num] at hclose hr
  have hlow : 9223372036854775807 ≤ n * 1024 + 1 := by exact_mod_cast hclose.1
  have hhigh : n * 1024 ≤ 9223372036854775808 := by exact_mod_cast hclose.2
  obtain rfl : n = 2 ^ 53 := by omega
  rw [hr]
  norm_num

lemma beq_long_iff (hx : value? x = some q) :
    (x == ofInt (clampWhole 64 x)) = true ↔ long.Holds q ∨ q = 2 ^ 63 := by
  constructor
  · intro h
    obtain ⟨hlow, hhigh⟩ := clampWhole_mem 64 hx
    have hnearest := nearest_of_beq le_rfl hx h
    obtain ⟨n, rfl⟩ := hnearest.whole
    have hleast : -2 ^ 63 ≤ (n : ℚ) := hnearest.ge representable_two_pow_63.neg (by exact_mod_cast hlow)
    have hmost : (n : ℚ) ≤ 2 ^ 63 := hnearest.le representable_two_pow_63 (by exact_mod_cast by omega)
    rcases hmost.lt_or_eq with hlt | heq
    · have hlt' : n < 2 ^ 63 := by exact_mod_cast hlt
      exact Or.inl ⟨n, rfl, by exact_mod_cast hleast, by omega⟩
    · exact Or.inr heq
  · rintro (h | rfl)
    · exact beq_of_wholeIn le_rfl hx h
    · have hclamp : clampWhole 64 x = 2 ^ 63 - 1 := by
        have hx' : value? x = some ((2 ^ 63 : ℤ) : ℚ) := by exact_mod_cast hx
        rw [clampWhole_eq 64 hx', truncated_intCast]
        norm_num
      rw [hclamp, beq_iff hx value?_greatest_long]

open Classical in
lemma natural_eq (hx : value? x = some q) : natural x =
    if int.Holds q then int else if long.Holds q ∨ q = 2 ^ 63 then long
    else if float.Holds q then float else double := by
  have hfloat : (x == ofSingle (toSingle x)) = true ↔ float.Holds q := beq_ofSingle_iff hx
  simp only [natural, beq_int_iff hx, beq_long_iff hx, hfloat]

open Classical in
lemma natural_of_ne (hx : value? x = some q) (hne : q ≠ 2 ^ 63) : natural x = narrowest q := by
  have hlong : long.Holds q ∨ q = 2 ^ 63 ↔ long.Holds q := or_iff_left hne
  rw [natural_eq hx, narrowest]
  exact if_congr Iff.rfl rfl (if_congr hlong rfl rfl)

lemma holds_narrowest (hx : value? x = some q) : (narrowest q).Holds q := by
  unfold narrowest
  split_ifs with hint hlong hfloat
  · exact hint
  · exact hlong
  · exact hfloat
  · exact ⟨x, hx⟩

lemma two_pow_63_not_wholeIn (hbits : bits ≤ 64) : ¬ WholeIn bits (2 ^ 63) := by
  rintro ⟨n, hn, -, hhigh⟩
  have hlimit := two_pow_le hbits
  have hn' : n = 2 ^ 63 := by exact_mod_cast hn.symm
  omega

lemma natural_two_pow_63 (hx : value? x = some (2 ^ 63)) : natural x = long := by
  have hint : ¬ int.Holds (2 ^ 63) := two_pow_63_not_wholeIn (by norm_num)
  rw [natural_eq hx, if_neg hint, if_pos (Or.inr rfl)]

lemma narrowest_two_pow_63 : narrowest (2 ^ 63) = float := by
  have hint : ¬ int.Holds (2 ^ 63) := two_pow_63_not_wholeIn (by norm_num)
  have hlong : ¬ long.Holds (2 ^ 63) := two_pow_63_not_wholeIn le_rfl
  have hsingle : float.Holds (2 ^ 63) := exists_single_iff.mpr ⟨1, 63, by norm_num⟩
  rw [narrowest, if_neg hint, if_neg hlong, if_pos hsingle]

/-- Conversion to a long stops at `2 ^ 63 - 1`, whose nearest double is `2 ^ 63`, so that this one number
passes for a long. -/
theorem natural_narrowest (x : Float) (hx : x.isFinite = true) :
    ∃ q, value? x = some q ∧ (q ≠ 2 ^ 63 → natural x = narrowest q ∧ (natural x).Holds q) ∧
      (q = 2 ^ 63 → natural x = long ∧ ¬ long.Holds q ∧ narrowest q = float) := by
  obtain ⟨q, hq⟩ := value?_of_isFinite hx
  refine ⟨q, hq, fun hne => ?_, ?_⟩
  · rw [natural_of_ne hq hne]
    exact ⟨rfl, holds_narrowest hq⟩
  · rintro rfl
    exact ⟨natural_two_pow_63 hq, two_pow_63_not_wholeIn le_rfl, narrowest_two_pow_63⟩

theorem least_long_narrowest : (-9223372036854775808 : Float).isFinite = true ∧
    value? (-9223372036854775808) = some (-2 ^ 63) ∧ narrowest (-2 ^ 63) = long := by
  have hfinite : (-9223372036854775808 : Float).isFinite = true := by decide
  have hwhole : whole? (-9223372036854775808) = some (-2 ^ 63) := by decide
  have hlong : natural (-9223372036854775808) = long := by decide
  obtain ⟨q, hq, hnarrowest, -⟩ := natural_narrowest _ hfinite
  obtain rfl : q = -2 ^ 63 := by
    have hvalue := whole?_eq_some.mp hwhole
    exact_mod_cast Option.some.inj (hq.symm.trans hvalue)
  refine ⟨hfinite, hq, ?_⟩
  rw [← hlong]
  exact (hnarrowest (by norm_num)).1.symm

theorem two_pow_63_taken_for_long : value? 9223372036854775808 = some (2 ^ 63) ∧
    natural 9223372036854775808 = long ∧ ¬ long.Holds (2 ^ 63) ∧ narrowest (2 ^ 63) = float := by
  have hwhole : whole? 9223372036854775808 = some (2 ^ 63) := by decide
  have hvalue : value? 9223372036854775808 = some (2 ^ 63) := by exact_mod_cast whole?_eq_some.mp hwhole
  exact ⟨hvalue, natural_two_pow_63 hvalue, two_pow_63_not_wholeIn le_rfl, narrowest_two_pow_63⟩

end TensorSchema.DataType
