import Mathlib
import TensorSchema.Double.Shortest

namespace TensorSchema.Double

lemma scale_eq (x : Float) : (x.toBits >>> 52 &&& 0x7ff).toNat =
    (@Float.Model.UnpackedFloat.unpackExponent .binary64 x.toModel.toBits.toBitVec).toNat := by
  change (x.toModel.toBits >>> 52 &&& 0x7ff).toNat = _
  rw [Float.Model.UnpackedFloat.unpackExponent]
  simp only [UInt64.toNat_and, UInt64.toNat_shiftRight, BitVec.toNat_cast, BitVec.extractLsb_toNat,
    UInt64.toNat_toBitVec]
  exact Nat.and_two_pow_sub_one_eq_mod _ 11

lemma parts_of_isFinite {x : Float} (h : x.isFinite = true) :
    ∃ negative m q, parts x = .finite negative m q := by
  have hscale : (x.toBits >>> 52 &&& 0x7ff).toNat ≠ 2047 := by
    intro htop
    have hexponent :
        @Float.Model.UnpackedFloat.unpackExponent .binary64 x.toModel.toBits.toBitVec = -1#11 :=
      BitVec.eq_of_toNat_eq ((scale_eq x).symm.trans htop)
    rw [Float.isFinite, Float.Model.isFinite, Float.Model.unpack, Float.Model.UnpackedFloat.unpack] at h
    simp only [hexponent, if_true] at h
    split at h <;> cases h
  simp only [parts, hscale, if_false]
  split <;> exact ⟨_, _, _, rfl⟩

variable {ties : Ties} {m n fuel : ℕ} {q k : ℤ}

lemma gridPoint?_ne_zero (hm : m ≠ 0) (h : gridPoint? ties m q k = some n) : n ≠ 0 := by
  rintro rfl
  have hscale : 0 < twoTo (q - 2).toNat * tenTo (-k).toNat := by
    refine Nat.mul_pos ?_ (Nat.pow_pos (by decide))
    rw [twoTo, Nat.one_shiftLeft]
    exact Nat.two_pow_pos _
  have hvalue : 4 * (twoTo (q - 2).toNat * tenTo (-k).toNat) ≤
      4 * m * (twoTo (q - 2).toNat * tenTo (-k).toNat) := Nat.mul_le_mul_right _ (by omega)
  simp only [gridPoint?] at h
  generalize twoTo (q - 2).toNat * tenTo (-k).toNat = scale at h hscale hvalue
  generalize twoTo (2 - q).toNat * tenTo k.toNat = unit at h
  generalize 4 * m * scale = value at h hvalue
  -- zero lies below the interval, so that it is no point of the grid that reads back
  have hbelow : 0 < if m = 0x10000000000000 ∧ -1074 < q then value - scale else value - 2 * scale := by
    split <;> omega
  generalize (if m = 0x10000000000000 ∧ -1074 < q then value - scale else value - 2 * scale) = below
    at h hbelow
  cases hpoint : value / unit with
  | zero =>
    rw [hpoint] at h
    have hout : (if m % 2 = 0 then decide (below ≤ 0 * unit) && decide (0 * unit ≤ value + 2 * scale)
        else decide (below < 0 * unit) && decide (0 * unit < value + 2 * scale)) = false := by
      simp [hbelow.ne']
    rw [hout] at h
    split at h <;> simp_all
  | succ p =>
    rw [hpoint] at h
    cases ties <;> grind

lemma searchGrid_ne_zero {d : Decimal} (hm : m ≠ 0) (h : searchGrid ties m q fuel k = some d) :
    d.coefficient ≠ 0 := by
  induction fuel generalizing k with
  | zero => cases h
  | succ fuel ih =>
    rw [searchGrid] at h
    split at h
    next n hn =>
      cases h
      exact gridPoint?_ne_zero hm hn
    next => exact ih h

lemma shortest_exponent (h : (shortest ties m q).coefficient = 0) :
    (shortest ties m q).exponent ≤ 0 := by
  by_cases hm : m = 0
  · simp [shortest, hm]
  · simp only [shortest, hm, if_false] at h ⊢
    cases hsearch : searchGrid ties m q 24 ((q + m.log2) * 30103 / 100000 + 3) with
    | some d =>
      rw [hsearch] at h
      exact absurd h (searchGrid_ne_zero hm hsearch)
    | none =>
      rw [Option.getD_none, exactDecimal]
      split
      · exact le_rfl
      next hq => exact (not_le.mp hq).le

end TensorSchema.Double
